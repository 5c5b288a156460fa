import Trivalent.Proofs.Typing.Functions

/-!
# Resolved expressions

What holds of the expressions that documents resolve to: all of their types are registered, the values
of their literals conform, their paths follow the types of attributes, and the type of arithmetic is the
one that is found for its operands.
-/

namespace Trivalent

inductive Expression.Resolved (registry : Registry) (roots : Roots) : Expression → Prop
  | literal    : registry.Has t → Conforms t v → Resolved registry roots (.literal t v)
  | collection : registry.Has t → t.kind = .collection → (∀ e ∈ items, Resolved registry roots e) →
                 Resolved registry roots (.collection t items)
  | path       : roots.type? p.root = some t → Path.follow t names = .ok (p.type, p.attributes) →
                 Resolved registry roots (.path p)
  | signed     : Resolved registry roots e → Resolved registry roots (.signed e.type e n)
  | arithmetic : Resolved registry roots l → Resolved registry roots r →
                 ArithmeticType l.type r.type t → Resolved registry roots (.arithmetic t o l r)
  | call       : f ∈ Standard.functions → f.result = some t → (∀ a ∈ as, a.1 ∈ f.parameters) →
                 (∀ a ∈ as, Resolved registry roots a.2) → Resolved registry roots (.call t f as)
  | comparison : Resolved registry roots l → Resolved registry roots r →
                 Resolved registry roots (.comparison Standard.boolean o l r n)
  | between    : Resolved registry roots e → Resolved registry roots l → Resolved registry roots u →
                 Resolved registry roots (.between Standard.boolean e l u n)
  | member     : Resolved registry roots e → (∀ i ∈ is, Resolved registry roots i) →
                 Resolved registry roots (.member Standard.boolean e is n)
  | isNull     : Resolved registry roots e → Resolved registry roots (.isNull Standard.boolean e n)
  | isEmpty    : Resolved registry roots e → Resolved registry roots (.isEmpty Standard.boolean e n)
  | compound   : (∀ p ∈ ps, Resolved registry roots p) →
                 Resolved registry roots (.compound Standard.boolean c ps n)
  | truth      : Resolved registry roots e → Resolved registry roots (.truth Standard.boolean e n)

theorem Standard.result_mem {f : Function} (hf : f ∈ functions) (ht : f.result = some t) :
    t ∈ basics := by
  simp only [functions, List.mem_cons, List.not_mem_nil, or_false] at hf
  rcases hf with rfl | rfl | rfl <;> cases ht
  case inl     => exact integer_mem
  case inr.inl => exact integer_mem
  case inr.inr => exact numeric_mem

namespace Path

variable {registry : Registry} {t last : DataType} {attributes : List Attribute}

theorem has_of_follow {names : List String} (hr : registry.Configured) (ht : registry.Has t)
    (h : follow t names = .ok (last, attributes)) : registry.Has last := by
  induction names generalizing t attributes
  case nil =>
    cases h
    exact ht
  case cons name names hi =>
    rw [follow] at h
    split at h
    case h_1 => contradiction
    case h_2 ha =>
      obtain ⟨⟨_, rest⟩, h', h⟩ := bind_eq_ok.mp h
      cases h
      exact hi ((ht.declares hr).of_attribute? ha).2.1 h'

end Path

namespace Expression.Resolved

variable {registry : Registry} {roots : Roots} {e : Expression}

theorem has (h : e.Resolved registry roots) (hr : registry.Configured)
    (hroots : roots.Registered registry) : registry.Has e.type := by
  induction h
  case literal ht _              => exact ht
  case collection ht _ _ _       => exact ht
  case path ht hf                => exact Path.has_of_follow hr (hroots _ _ ht) hf
  case signed hi                 => exact hi
  case arithmetic ht hl _        => exact ht.has hr hl
  case call hf ht _ _ _          => exact hr.basics (Standard.result_mem hf ht)
  all_goals exact hr.basics Standard.boolean_mem

theorem negate (h : e.Resolved registry roots) (hp : e.isPredicate) :
    e.negate.Resolved registry roots := by
  cases h
  case comparison hl hr  => exact .comparison hl hr
  case between he hl hu  => exact .between he hl hu
  case member he hi      => exact .member he hi
  case isNull he         => exact .isNull he
  case isEmpty he        => exact .isEmpty he
  case compound hps      => exact .compound hps
  case truth he          => exact .truth he
  all_goals contradiction

theorem negateIf (h : e.Resolved registry roots) (hp : e.isPredicate) (n : Bool) :
    (e.negateIf n).Resolved registry roots := by
  cases n
  case false => exact h
  case true  => exact h.negate hp

end Expression.Resolved

namespace Literal

variable {registry : Registry} {t : DataType} {json : Json}

theorem read_basicName (ht : t ∈ Standard.basics) (h : read t json = .ok v) (hv : v ≠ .null) :
    v.basicName? = some t.name := by
  simp only [read] at h
  split at h
  case isTrue  => cases h; contradiction
  case isFalse =>
    cases Standard.Basic.of_mem ht
    case integer =>
      change readInteger json = .ok v at h
      simp only [readInteger] at h
      split at h <;> cases h
      rfl
    case numeric =>
      change readNumeric json = .ok v at h
      simp only [readNumeric] at h
      split at h <;> cases h
      rfl
    case string =>
      change readString json = .ok v at h
      simp only [readString] at h
      split at h <;> cases h
      rfl
    case boolean =>
      change readBoolean json = .ok v at h
      simp only [readBoolean] at h
      split at h <;> cases h
      rfl
    case time =>
      change readTime json = .ok v at h
      simp only [readTime] at h
      split at h
      case h_2 => contradiction
      case h_1 =>
        have ⟨_, _, h⟩ := map_eq_ok.mp h
        exact h ▸ rfl
    case interval =>
      change readInterval json = .ok v at h
      simp only [readInterval] at h
      split at h
      case h_2 => contradiction
      case h_1 =>
        have ⟨_, _, h⟩ := map_eq_ok.mp h
        exact h ▸ rfl

theorem form_enumeration (ht : t.name ∉ ["INTEGER", "NUMERIC", "STRING", "BOOLEAN", "TIME", "INTERVAL"])
    (hs : t.shape = .enumeration constants) : form t = .constant constants := by
  simp only [List.mem_cons, List.not_mem_nil, or_false, not_or] at ht
  simp only [form]
  split <;> simp_all

theorem read_constant (ht : t.name ∉ ["INTEGER", "NUMERIC", "STRING", "BOOLEAN", "TIME", "INTERVAL"])
    (hs : t.shape = .enumeration constants) (h : read t json = .ok v) (hv : v ≠ .null) :
    ∃ s ∈ constants, v = .string s := by
  simp only [read] at h
  split at h
  case isTrue  => cases h; contradiction
  case isFalse =>
    simp only [form_enumeration ht hs] at h
    simp only [readConstant] at h
    split at h
    case h_2 => contradiction
    case h_1 =>
      split at h
      case isTrue hm => cases h; exact ⟨_, hm, rfl⟩
      case isFalse   => contradiction

-- What is read as a value of a basic type or of an enumeration conforms to it.
theorem value_conforms (hr : registry.Configured) (ht : registry.Has t)
    (hk : t.kind = .basic ∨ t.kind = .enumeration) (h : value t json = .ok v) : Conforms t v := by
  have h := mapError_eq_ok.mp h
  by_cases hv : v = .null
  case pos => exact hv ▸ .null
  case neg =>
    have hn := ht.basic_or hr
    cases ht.declares hr
    case basic hb    => exact .basic (Standard.shape_of_mem hb) (read_basicName hb h hv)
    case enumeration =>
      have hn := hn.resolve_left (nomatch Standard.shape_of_mem ·) |>.2
      have ⟨s, hs, hv⟩ := read_constant hn rfl h hv
      exact hv ▸ .enumeration rfl hs
    case entity      => cases hk <;> contradiction
    case collection  => cases hk <;> contradiction

end Literal

namespace Resolution

variable {registry : Registry} {roots : Roots} {t : DataType}

theorem has_of_requireType {name : String} (hr : registry.Configured)
    (h : requireType registry name = .ok t) : registry.Has t :=
  Registry.has_of_requireType hr (mapError_eq_ok.mp h)

theorem boolean_eq (hr : registry.Configured) (h : boolean registry = .ok t) : t = Standard.boolean :=
  eq_of_requireType hr Standard.boolean_mem h

theorem collectionType_kind (hr : registry.Configured) (h : collectionType registry e = .ok t) :
    registry.Has t ∧ t.kind = .collection := by
  have ht := has_of_requireType hr h
  have hn := Registry.name_of_requireType hr (mapError_eq_ok.mp h)
  have ⟨_, _, _, he⟩ := (ht.declares hr).eq_collection (hn ▸ DataType.elementName?_collectionName e.name)
  exact ⟨ht, he ▸ rfl⟩

-- A type that a literal may be given: the name of a basic type or of an enumeration.
def isPlain (registry : Registry) (type : Option String) : Bool :=
  type.all fun name => (registry.type? name).all fun t => t.kind = .basic || t.kind = .enumeration

theorem isPlain_kind {name : String} (hp : isPlain registry (some name))
    (h : requireType registry name = .ok t) :
    t.kind = .basic ∨ t.kind = .enumeration := by
  have h := Registry.requireType_eq_ok.mp (mapError_eq_ok.mp h)
  simpa [isPlain, h] using hp

theorem inferredType_kind (hr : registry.Configured) (h : inferredType registry json = .ok t) :
    registry.Has t ∧ t.kind = .basic := by
  have ⟨name, hn, h⟩ := bind_eq_ok.mp h
  refine ⟨has_of_requireType hr h, ?_⟩
  have basic {b : DataType} (hb : b ∈ Standard.basics) (hn : name = b.name) : t.kind = .basic := by
    have := eq_of_requireType hr hb (hn ▸ h)
    rw [this, DataType.kind, Standard.shape_of_mem hb]
    rfl
  simp only [inferredName] at hn
  split at hn <;> cases hn
  case h_1 => exact basic Standard.boolean_mem rfl
  case h_2 => exact basic Standard.integer_mem rfl
  case h_3 => exact basic Standard.numeric_mem rfl
  case h_4 => exact basic Standard.string_mem rfl

theorem literalOf_resolved (hr : registry.Configured) (ht : registry.Has t)
    (hk : t.kind = .basic ∨ t.kind = .enumeration) (h : literalOf t json = .ok e) :
    e.Resolved registry roots := by
  have ⟨v, hv, h⟩ := bind_eq_ok.mp h
  cases h
  exact .literal ht (Literal.value_conforms hr ht hk hv)

theorem scalar_resolved (hr : registry.Configured) (hp : isPlain registry type)
    (h : scalar registry json type = .ok e) : e.Resolved registry roots := by
  cases type
  case none =>
    have ⟨t, ht, h⟩ := bind_eq_ok.mp h
    have ⟨hh, hk⟩ := inferredType_kind hr ht
    exact literalOf_resolved hr hh (.inl hk) h
  case some name =>
    have ⟨t, ht, h⟩ := bind_eq_ok.mp h
    exact literalOf_resolved hr (has_of_requireType hr ht) (isPlain_kind hp ht) h

theorem elementType_kind (hr : registry.Configured) (hp : isPlain registry type)
    (h : elementType registry items type = .ok t) :
    registry.Has t ∧ (t.kind = .basic ∨ t.kind = .enumeration) := by
  simp only [elementType] at h
  split at h
  case h_1 => exact ⟨has_of_requireType hr h, isPlain_kind hp h⟩
  case h_2 =>
    split at h
    case h_1 => exact (inferredType_kind hr h).imp_right .inl
    case h_2 => contradiction

theorem array_resolved (hr : registry.Configured) (hp : isPlain registry type)
    (h : array registry items type = .ok e) : e.Resolved registry roots := by
  have ⟨element, he, h⟩ := bind_eq_ok.mp h
  have ⟨literals, hl, h⟩ := bind_eq_ok.mp h
  have ⟨t, ht, h⟩ := bind_eq_ok.mp h
  cases h
  have ⟨ht, hk⟩ := collectionType_kind hr ht
  have ⟨hh, hk'⟩ := elementType_kind hr hp he
  refine .collection ht hk fun e he => ?_
  have ⟨_, h⟩ := of_mapM_eq_ok hl he
  exact literalOf_resolved hr hh hk' h

theorem literal_resolved (hr : registry.Configured) (hp : isPlain registry type)
    (h : literal registry json type = .ok e) : e.Resolved registry roots := by
  simp only [literal] at h
  split at h
  case h_1 => exact array_resolved hr hp h
  case h_2 => exact scalar_resolved hr hp h

theorem path_resolved {root : String} (h : path roots root names = .ok e) :
    e.Resolved registry roots := by
  simp only [path] at h
  split at h
  case h_1    => contradiction
  case h_2 ht =>
    have ⟨p, hp, h⟩ := map_eq_ok.mp (mapError_eq_ok.mp h)
    subst h
    have ⟨⟨last, attributes⟩, hf, hp⟩ := bind_eq_ok.mp hp
    cases hp
    exact .path ht hf

theorem negation_resolved (hr : registry.Configured) (hx : x.Resolved registry roots)
    (h : negation registry x = .ok e) : e.Resolved registry roots := by
  simp only [negation] at h
  split at h
  case isTrue hp => cases h; exact hx.negate hp
  case isFalse   =>
    have ⟨t, ht, h⟩ := bind_eq_ok.mp h
    cases h
    cases boolean_eq hr ht
    exact .truth hx

theorem collection_resolved (hr : registry.Configured) (hx : ∀ x ∈ xs, x.Resolved registry roots)
    (h : collection registry xs type = .ok e) : e.Resolved registry roots := by
  have ⟨element, _, h⟩ := bind_eq_ok.mp h
  have ⟨t, ht, h⟩ := bind_eq_ok.mp h
  cases h
  have ⟨ht, hk⟩ := collectionType_kind hr ht
  exact .collection ht hk hx

end Resolution

namespace Function

variable {registry : Registry} {roots : Roots} {f : Function}

theorem mem_of_requireFunction {name : String} (hr : registry.Configured)
    (h : registry.requireFunction name = .ok f) : f ∈ Standard.functions := by
  simp only [Registry.requireFunction] at h
  split at h
  case h_2    => contradiction
  case h_1 hf =>
    cases h
    rw [Registry.function?, hr.functions] at hf
    have hm := Dictionary.mem_ofList (Dictionary.mem_of_find? hf)
    have ⟨f', hf', he⟩ := List.mem_map.mp hm
    exact (Prod.mk.inj he).2 ▸ hf'

theorem Calls.resolved (hf : f ∈ Standard.functions) (hc : f.Calls es e)
    (he : ∀ e ∈ es, e.Resolved registry roots) : e.Resolved registry roots := by
  cases hc
  case call ht hb ha => exact .call hf ht hb.parameters fun a hm => he a.2 (ha a hm)

end Function

namespace Document

variable (registry : Registry)

mutual

-- No arithmetic is given a type, and literals are given none but types of plain literals.
def isPlain : Document → Bool
  | literal _ t           => Resolution.isPlain registry t
  | collection is _       => arePlain is
  | path ..               => true
  | negative e            => e.isPlain
  | arithmetic _ l r t    => t.isNone && l.isPlain && r.isPlain
  | call _ as             => as.isPlain
  | comparison _ l r _    => l.isPlain && r.isPlain
  | between e l u _       => e.isPlain && l.isPlain && u.isPlain
  | member e is _         => e.isPlain && arePlain is
  | isNull e _            => e.isPlain
  | isEmpty e _           => e.isPlain
  | compound _ ps _       => arePlain ps
  | truth e _             => e.isPlain
  | not e                 => e.isPlain

def Arguments.isPlain : Document.Arguments → Bool
  | .positional ds => arePlain ds
  | .named ds      => areNamedPlain ds

def arePlain : List Document → Bool
  | []      => true
  | d :: ds => d.isPlain && arePlain ds

def areNamedPlain : List (String × Document) → Bool
  | []           => true
  | (_, d) :: ds => d.isPlain && areNamedPlain ds

end

variable {registry : Registry} {roots : Roots}

mutual

-- The induction is over the document, its lists of children included.
theorem resolve_resolved (hr : registry.Configured) {d : Document} {e : Expression}
    (hp : d.isPlain registry)
    (h : d.resolve registry roots = .ok e) : e.Resolved registry roots := by
  cases d <;> simp only [isPlain, Bool.and_eq_true] at hp <;> rw [resolve] at h
  case literal v t   => exact Resolution.literal_resolved hr hp h
  case path r as     => exact Resolution.path_resolved h
  case collection is t =>
    have ⟨xs, hxs, h⟩ := bind_eq_ok.mp h
    exact Resolution.collection_resolved hr (resolveAll_resolved hr hp hxs) h
  case negative d =>
    have ⟨x, hx, h⟩ := bind_eq_ok.mp h
    cases h
    exact .signed (resolve_resolved hr hp hx)
  case arithmetic o l r t =>
    have ⟨o, _, h⟩ := bind_eq_ok.mp h
    have ⟨x, hx, h⟩ := bind_eq_ok.mp h
    have ⟨y, hy, h⟩ := bind_eq_ok.mp h
    cases Option.isNone_iff_eq_none.mp hp.1.1
    have ⟨t, ht, h⟩ := bind_eq_ok.mp h
    cases h
    have hx := resolve_resolved hr hp.1.2 hx
    have hy := resolve_resolved hr hp.2 hy
    exact .arithmetic hx hy (.of_resolution hr ht)
  case call f as =>
    have ⟨f, hf, h⟩ := bind_eq_ok.mp h
    have hf := Function.mem_of_requireFunction hr (mapError_eq_ok.mp hf)
    exact resolveArguments_resolved hr hf hp h
  case comparison o l r n =>
    have ⟨o, _, h⟩ := bind_eq_ok.mp h
    have ⟨t, ht, h⟩ := bind_eq_ok.mp h
    have ⟨x, hx, h⟩ := bind_eq_ok.mp h
    have ⟨y, hy, h⟩ := bind_eq_ok.mp h
    cases h
    cases Resolution.boolean_eq hr ht
    have hx := resolve_resolved hr hp.1 hx
    have hy := resolve_resolved hr hp.2 hy
    exact Expression.Resolved.negateIf (.comparison hx hy) rfl n
  case between d l u n =>
    have ⟨t, ht, h⟩ := bind_eq_ok.mp h
    have ⟨x, hx, h⟩ := bind_eq_ok.mp h
    have ⟨y, hy, h⟩ := bind_eq_ok.mp h
    have ⟨z, hz, h⟩ := bind_eq_ok.mp h
    cases h
    cases Resolution.boolean_eq hr ht
    have hx := resolve_resolved hr hp.1.1 hx
    have hy := resolve_resolved hr hp.1.2 hy
    have hz := resolve_resolved hr hp.2 hz
    exact Expression.Resolved.negateIf (.between hx hy hz) rfl n
  case member d is n =>
    have ⟨t, ht, h⟩ := bind_eq_ok.mp h
    have ⟨x, hx, h⟩ := bind_eq_ok.mp h
    have ⟨xs, hxs, h⟩ := bind_eq_ok.mp h
    cases h
    cases Resolution.boolean_eq hr ht
    have hx := resolve_resolved hr hp.1 hx
    have hxs := resolveAll_resolved hr hp.2 hxs
    exact Expression.Resolved.negateIf (.member hx hxs) rfl n
  case isNull d n =>
    have ⟨t, ht, h⟩ := bind_eq_ok.mp h
    have ⟨x, hx, h⟩ := bind_eq_ok.mp h
    cases h
    cases Resolution.boolean_eq hr ht
    exact Expression.Resolved.negateIf (.isNull (resolve_resolved hr hp hx)) rfl n
  case isEmpty d n =>
    have ⟨t, ht, h⟩ := bind_eq_ok.mp h
    have ⟨x, hx, h⟩ := bind_eq_ok.mp h
    cases h
    cases Resolution.boolean_eq hr ht
    exact Expression.Resolved.negateIf (.isEmpty (resolve_resolved hr hp hx)) rfl n
  case compound c ps n =>
    have ⟨t, ht, h⟩ := bind_eq_ok.mp h
    have ⟨xs, hxs, h⟩ := bind_eq_ok.mp h
    cases h
    cases Resolution.boolean_eq hr ht
    exact Expression.Resolved.negateIf (.compound (resolveAll_resolved hr hp hxs)) rfl n
  case truth d n =>
    have ⟨t, ht, h⟩ := bind_eq_ok.mp h
    have ⟨x, hx, h⟩ := bind_eq_ok.mp h
    cases h
    cases Resolution.boolean_eq hr ht
    exact Expression.Resolved.negateIf (.truth (resolve_resolved hr hp hx)) rfl n
  case not d =>
    have ⟨x, hx, h⟩ := bind_eq_ok.mp h
    exact Resolution.negation_resolved hr (resolve_resolved hr hp hx) h

theorem resolveArguments_resolved (hr : registry.Configured)
    {f : Function} (hf : f ∈ Standard.functions) {as : Document.Arguments} {e : Expression}
    (hp : as.isPlain registry) (h : as.resolve registry roots f = .ok e) :
    e.Resolved registry roots := by
  cases as <;> simp only [Arguments.isPlain] at hp <;> rw [Arguments.resolve] at h
  case positional ds =>
    have ⟨xs, hxs, h⟩ := bind_eq_ok.mp h
    have hxs := resolveAll_resolved hr hp hxs
    have hcall := Function.calls_of_callPositional (Standard.numbered hf) (mapError_eq_ok.mp h)
    exact hcall.resolved hf hxs
  case named ds =>
    have ⟨xs, hxs, h⟩ := bind_eq_ok.mp h
    have hxs := resolveNamed_resolved hr hp hxs
    have hcall := Function.calls_of_callNamed (mapError_eq_ok.mp h)
    exact hcall.resolved hf (List.forall_mem_map.mpr hxs)

theorem resolveAll_resolved (hr : registry.Configured)
    {ds : List Document} {es : List Expression} (hp : arePlain registry ds)
    (h : resolveAll registry roots ds = .ok es) : ∀ e ∈ es, e.Resolved registry roots := by
  cases ds <;> simp only [arePlain, Bool.and_eq_true] at hp <;> rw [resolveAll] at h
  case nil =>
    cases h
    nofun
  case cons d ds =>
    have ⟨x, hx, h⟩ := bind_eq_ok.mp h
    have ⟨xs, hxs, h⟩ := bind_eq_ok.mp h
    cases h
    simp only [List.mem_cons, forall_eq_or_imp]
    exact ⟨resolve_resolved hr hp.1 hx, resolveAll_resolved hr hp.2 hxs⟩

theorem resolveNamed_resolved (hr : registry.Configured)
    {ds : List (String × Document)} {es : List (String × Expression)}
    (hp : areNamedPlain registry ds) (h : resolveNamed registry roots ds = .ok es) :
    ∀ e ∈ es, e.2.Resolved registry roots := by
  cases ds
  case nil =>
    cases h
    nofun
  case cons d ds =>
    have ⟨name, d⟩ := d
    simp only [areNamedPlain, Bool.and_eq_true] at hp
    rw [resolveNamed] at h
    have ⟨x, hx, h⟩ := bind_eq_ok.mp h
    have ⟨xs, hxs, h⟩ := bind_eq_ok.mp h
    cases h
    simp only [List.mem_cons, forall_eq_or_imp]
    exact ⟨resolve_resolved hr hp.1 hx, resolveNamed_resolved hr hp.2 hxs⟩

end

end Document

end Trivalent
