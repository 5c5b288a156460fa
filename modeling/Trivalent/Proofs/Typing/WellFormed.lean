import Trivalent.Proofs.Expression.Nodes
import Trivalent.Proofs.Logic.Negation
import Trivalent.Proofs.Registry.Building
import Trivalent.Proofs.Typing.Functions
import Trivalent.Proofs.Typing.Soundness

/-!
# Well-formed trees

The evaluation relies on trees that fit the registry and the roots: registered types, paths along attributes,
predicates whose type is that of truths, calls with arguments in their places. Whatever a document says, it
resolves to such a tree or to none.
-/

namespace Trivalent

-- What holds of a single node.
structure Expression.WellFormed (r : Registry) (roots : Roots) (e : Expression) : Prop where
  type      : r.Has e.type
  path      : ∀ p, e = .path p → ∃ t, roots.type? p.root = some t ∧ (roots.object? p.root).isSome ∧
              Path.Chain t p.attributes p.type
  predicate : e.isPredicate → r.type? "BOOLEAN" = some e.type
  signed    : ∀ t x n, e = .signed t x n → t = x.type
  call      : ∀ t f as, e = .call t f as → r.function? f.name = some f ∧ f.result = some t ∧ f.Binds as

-- Every root has a type that is registered and an object.
def Roots.Bound (r : Registry) (roots : Roots) : Prop :=
  ∀ name t, roots.type? name = some t → r.Has t ∧ (roots.object? name).isSome

-- What documents are resolved against.
structure Registry.Prepared (r : Registry) (roots : Roots) : Prop where
  tidy     : r.Tidy
  closed   : r.Closed
  numbered : ∀ name f, r.function? name = some f → f.Numbered
  roots    : roots.Bound r

namespace Registry

variable {r : Registry} {name : String}

theorem Tidy.has_of_requireType (h : r.Tidy) (ht : r.requireType name = .ok t) : r.Has t :=
  h.has (requireType_eq_ok.mp ht)

-- The attributes of a chain have registered types.
theorem Closed.has_of_chain (h : r.Closed) (ht : r.Has t) (hc : Path.Chain t as last) : r.Has last := by
  induction hc
  case nil => exact ht
  case cons ha _ hi => exact hi (h.types _ _ ht _ (DataType.mem_parts_of_attribute? ha))

end Registry

namespace Configuration

theorem bindRoots_bound {bindings : Dictionary Binding} {roots roots' : Roots} (hr : r.Tidy)
    (hroots : roots.Bound r) (h : bindRoots r roots bindings = .ok roots') : roots'.Bound r := by
  induction bindings generalizing roots
  case nil =>
    cases h
    exact hroots
  case cons first bindings hi =>
    have ⟨name, b⟩ := first
    have ⟨t, ht, h⟩ := bind_eq_ok.mp h
    have ⟨v, _, h⟩ := bind_eq_ok.mp h
    have ht := hr.has_of_requireType (mapError_eq_ok.mp ht)
    apply hi _ h
    intro other t' h'
    simp only [Roots.type?, Roots.object?, Roots.bind, Dictionary.find?_insert] at h' ⊢
    split at h'
    case isTrue hn  => cases h'; simp [hn, ht]
    case isFalse hn => simpa [hn, Roots.object?] using hroots _ _ h'

theorem bind_bound {c : Configuration} {roots : Roots} (hr : r.Tidy) (h : c.bind r = .ok roots) : roots.Bound r :=
  bindRoots_bound hr (fun _ _ h => by simp [Roots.type?, Roots.empty] at h) h

end Configuration

namespace Expression

variable {r : Registry} {roots : Roots} {e : Expression}

-- All the nodes of a tree are well formed.
def Forms (r : Registry) (roots : Roots) (e : Expression) : Prop :=
  ∀ n ∈ e.nodes, n.WellFormed r roots

theorem forms_iff : e.Forms r roots ↔ e.WellFormed r roots ∧ ∀ c ∈ e.children, c.Forms r roots :=
  forall_mem_nodes

theorem Forms.has (h : e.Forms r roots) : r.Has e.type :=
  (forms_iff.mp h).1.type

theorem type_negate (hp : e.isPredicate) : e.negate.type = e.type := by
  cases e <;> first | contradiction | rfl

theorem children_negate (hp : e.isPredicate) : e.negate.children = e.children := by
  cases e <;> first | contradiction | rfl

theorem forms_of_isPredicate (hr : r.Tidy) (hp : e.isPredicate) (hb : r.type? "BOOLEAN" = some e.type)
    (hc : ∀ c ∈ e.children, c.Forms r roots) : e.Forms r roots := by
  refine forms_iff.mpr ⟨⟨hr.has hb, ?_, fun _ => hb, ?_, ?_⟩, hc⟩
  case refine_1 => rintro p rfl; contradiction
  case refine_2 => rintro t x n rfl; contradiction
  case refine_3 => rintro t f as rfl; contradiction

-- A predicate and its negation have one type and the same children.
theorem forms_negateIf (hr : r.Tidy) (hp : e.isPredicate) (hb : r.type? "BOOLEAN" = some e.type)
    (hc : ∀ c ∈ e.children, c.Forms r roots) : (e.negateIf n).Forms r roots := by
  cases n
  case false => exact forms_of_isPredicate hr hp hb hc
  case true  =>
    apply forms_of_isPredicate hr (isPredicate_negate e)
    · rwa [type_negate hp]
    · rwa [children_negate hp]

theorem forms_literal (ht : r.Has t) (v : Value) : (literal t v).Forms r roots :=
  forms_iff.mpr ⟨⟨ht, nofun, nofun, nofun, nofun⟩, nofun⟩

theorem forms_collection (ht : r.Has t) (hi : ∀ i ∈ is, i.Forms r roots) :
    (collection t is).Forms r roots :=
  forms_iff.mpr ⟨⟨ht, nofun, nofun, nofun, nofun⟩, hi⟩

theorem forms_arithmetic (ht : r.Has t) (hl : left.Forms r roots) (hr : right.Forms r roots) :
    (arithmetic t o left right).Forms r roots :=
  forms_iff.mpr ⟨⟨ht, nofun, nofun, nofun, nofun⟩, by simpa [children] using ⟨hl, hr⟩⟩

theorem forms_negative (he : e.Forms r roots) : (signed e.type e true).Forms r roots := by
  refine forms_iff.mpr ⟨⟨he.has, nofun, nofun, ?_, nofun⟩, by simpa [children] using he⟩
  rintro _ _ _ ⟨⟩
  rfl

theorem forms_path {p : Path} (h : r.Prepared roots) (ht : roots.type? p.root = some t)
    (hc : Path.Chain t p.attributes p.type) : (path p).Forms r roots := by
  have ⟨hh, ho⟩ := h.roots _ _ ht
  refine forms_iff.mpr ⟨⟨h.closed.has_of_chain hh hc, ?_, nofun, nofun, nofun⟩, nofun⟩
  rintro _ ⟨⟩
  exact ⟨t, ht, ho, hc⟩

theorem forms_of_calls {name : String} (h : r.Prepared roots) (hf : r.function? name = some f)
    (hc : f.Calls es e) (he : ∀ e ∈ es, e.Forms r roots) : e.Forms r roots := by
  cases hc
  case call t as ht hb ha =>
    refine forms_iff.mpr ⟨⟨h.closed.functions _ _ hf t ?result, nofun, nofun, nofun, ?call⟩, ?children⟩
    case result => simp [Function.parts, ht]
    case call   =>
      rintro _ _ _ ⟨⟩
      refine ⟨?_, ht, hb⟩
      rwa [Registry.function?, h.tidy.keyed _ _ hf]
    case children =>
      simp only [children, List.forall_mem_map]
      exact fun a hm => he _ (ha a hm)

end Expression

namespace Resolution

variable {r : Registry} {roots : Roots} {t : DataType} {e : Expression}

theorem has_of_required {name : String} (hr : r.Tidy) (h : requireType r name = .ok t) : r.Has t :=
  hr.has_of_requireType (mapError_eq_ok.mp h)

theorem type?_boolean (h : boolean r = .ok t) : r.type? "BOOLEAN" = some t :=
  Registry.requireType_eq_ok.mp (mapError_eq_ok.mp h)

theorem arithmeticType_has (hr : r.Tidy) (hleft : r.Has left) (h : arithmeticType r left right = .ok t) :
    r.Has t := by
  rw [arithmeticType] at h
  split at h
  case isTrue  => cases h; exact hleft
  case isFalse =>
    split at h
    case h_7 => cases h; exact hleft
    all_goals exact has_of_required hr h

theorem inferredType_has (hr : r.Tidy) (h : inferredType r json = .ok t) : r.Has t := by
  have ⟨_, _, h⟩ := bind_eq_ok.mp h
  exact has_of_required hr h

theorem elementType_has (hr : r.Tidy) (h : elementType r items type = .ok t) : r.Has t := by
  simp only [elementType] at h
  split at h
  case h_1 => exact has_of_required hr h
  case h_2 =>
    split at h
    case h_1 => exact inferredType_has hr h
    case h_2 => contradiction

theorem literalOf_forms (ht : r.Has t) (h : literalOf t json = .ok e) : e.Forms r roots := by
  have ⟨v, _, h⟩ := bind_eq_ok.mp h
  cases h
  exact Expression.forms_literal ht v

theorem scalar_forms (hr : r.Tidy) (h : scalar r json type = .ok e) : e.Forms r roots := by
  cases type
  case none =>
    have ⟨_, ht, h⟩ := bind_eq_ok.mp h
    exact literalOf_forms (inferredType_has hr ht) h
  case some =>
    have ⟨_, ht, h⟩ := bind_eq_ok.mp h
    exact literalOf_forms (has_of_required hr ht) h

theorem array_forms (hr : r.Tidy) (h : array r items type = .ok e) : e.Forms r roots := by
  have ⟨element, he, h⟩ := bind_eq_ok.mp h
  have ⟨literals, hl, h⟩ := bind_eq_ok.mp h
  have ⟨t, ht, h⟩ := bind_eq_ok.mp h
  cases h
  apply Expression.forms_collection (has_of_required hr ht)
  intro i hi
  have ⟨_, h⟩ := of_mapM_eq_ok hl hi
  exact literalOf_forms (elementType_has hr he) h

theorem literal_forms (hr : r.Tidy) (h : literal r json type = .ok e) : e.Forms r roots := by
  simp only [literal] at h
  split at h
  case h_1 => exact array_forms hr h
  case h_2 => exact scalar_forms hr h

theorem path_forms {root : String} (hr : r.Prepared roots) (h : path roots root names = .ok e) :
    e.Forms r roots := by
  rw [path] at h
  split at h
  case h_1    => contradiction
  case h_2 ht =>
    obtain ⟨p, hp, h⟩ := map_eq_ok.mp (mapError_eq_ok.mp h)
    subst h
    obtain ⟨⟨last, attributes⟩, hf, hp⟩ := bind_eq_ok.mp hp
    cases hp
    exact Expression.forms_path hr ht (Path.chain_of_follow hf)

theorem collection_forms (hr : r.Tidy) (hi : ∀ i ∈ is, i.Forms r roots)
    (h : collection r is element = .ok e) : e.Forms r roots := by
  have ⟨_, _, h⟩ := bind_eq_ok.mp h
  have ⟨t, ht, h⟩ := bind_eq_ok.mp h
  cases h
  exact Expression.forms_collection (has_of_required hr ht) hi

-- A predicate of the given children, negated or not.
theorem predicate_forms (hr : r.Tidy) (ht : boolean r = .ok t) (hp : e.isPredicate) (he : e.type = t)
    (hc : ∀ c ∈ e.children, c.Forms r roots) : (e.negateIf n).Forms r roots :=
  Expression.forms_negateIf hr hp (he ▸ type?_boolean ht) hc

theorem negation_forms (hr : r.Tidy) (hx : x.Forms r roots) (h : negation r x = .ok e) :
    e.Forms r roots := by
  rw [negation] at h
  split at h
  case isTrue hp =>
    cases h
    obtain ⟨hw, hc⟩ := Expression.forms_iff.mp hx
    have hn : (x.negateIf true).Forms r roots := Expression.forms_negateIf hr hp (hw.predicate hp) hc
    exact hn
  case isFalse =>
    obtain ⟨t, ht, h⟩ := bind_eq_ok.mp h
    cases h
    have hn : ((Expression.truth t x false).negateIf true).Forms r roots :=
      predicate_forms hr ht rfl rfl (List.forall_mem_singleton.mpr hx)
    exact hn

end Resolution

namespace Document

open Resolution

variable {r : Registry} {roots : Roots}

mutual

-- The induction is over the document, its lists of children included.
theorem resolve_forms (hr : r.Prepared roots) {d : Document} {e : Expression}
    (h : d.resolve r roots = .ok e) : e.Forms r roots := by
  have htidy := hr.tidy
  cases d <;> rw [resolve] at h
  case literal v t     => exact literal_forms htidy h
  case path root names => exact path_forms hr h
  case collection is t =>
    have ⟨xs, hxs, h⟩ := bind_eq_ok.mp h
    exact collection_forms htidy (resolveAll_forms hr hxs) h
  case negative d =>
    have ⟨x, hx, h⟩ := bind_eq_ok.mp h
    cases h
    exact Expression.forms_negative (resolve_forms hr hx)
  case arithmetic o l r t =>
    have ⟨o, _, h⟩ := bind_eq_ok.mp h
    have ⟨x, hx, h⟩ := bind_eq_ok.mp h
    have ⟨y, hy, h⟩ := bind_eq_ok.mp h
    have hx := resolve_forms hr hx
    have hy := resolve_forms hr hy
    cases t <;> have ⟨u, hu, h⟩ := bind_eq_ok.mp h <;> cases h
    case none => exact Expression.forms_arithmetic (arithmeticType_has htidy hx.has hu) hx hy
    case some => exact Expression.forms_arithmetic (has_of_required htidy hu) hx hy
  case call f as =>
    have ⟨f, hf, h⟩ := bind_eq_ok.mp h
    exact resolveArguments_forms hr (mapError_eq_ok.mp hf) h
  case comparison o l r n =>
    have ⟨o, _, h⟩ := bind_eq_ok.mp h
    have ⟨t, ht, h⟩ := bind_eq_ok.mp h
    have ⟨x, hx, h⟩ := bind_eq_ok.mp h
    have ⟨y, hy, h⟩ := bind_eq_ok.mp h
    cases h
    have hx := resolve_forms hr hx
    have hy := resolve_forms hr hy
    exact predicate_forms htidy ht rfl rfl (by simpa [Expression.children] using ⟨hx, hy⟩)
  case between d l u n =>
    have ⟨t, ht, h⟩ := bind_eq_ok.mp h
    have ⟨x, hx, h⟩ := bind_eq_ok.mp h
    have ⟨y, hy, h⟩ := bind_eq_ok.mp h
    have ⟨z, hz, h⟩ := bind_eq_ok.mp h
    cases h
    have hx := resolve_forms hr hx
    have hy := resolve_forms hr hy
    have hz := resolve_forms hr hz
    exact predicate_forms htidy ht rfl rfl (by simpa [Expression.children] using ⟨hx, hy, hz⟩)
  case member d is n =>
    have ⟨t, ht, h⟩ := bind_eq_ok.mp h
    have ⟨x, hx, h⟩ := bind_eq_ok.mp h
    have ⟨xs, hxs, h⟩ := bind_eq_ok.mp h
    cases h
    have hx := resolve_forms hr hx
    have hxs := resolveAll_forms hr hxs
    exact predicate_forms htidy ht rfl rfl (List.forall_mem_cons.mpr ⟨hx, hxs⟩)
  case isNull d n =>
    have ⟨t, ht, h⟩ := bind_eq_ok.mp h
    have ⟨x, hx, h⟩ := bind_eq_ok.mp h
    cases h
    have hx := resolve_forms hr hx
    exact predicate_forms htidy ht rfl rfl (List.forall_mem_singleton.mpr hx)
  case isEmpty d n =>
    have ⟨t, ht, h⟩ := bind_eq_ok.mp h
    have ⟨x, hx, h⟩ := bind_eq_ok.mp h
    cases h
    have hx := resolve_forms hr hx
    exact predicate_forms htidy ht rfl rfl (List.forall_mem_singleton.mpr hx)
  case compound c ps n =>
    have ⟨t, ht, h⟩ := bind_eq_ok.mp h
    have ⟨xs, hxs, h⟩ := bind_eq_ok.mp h
    cases h
    exact predicate_forms htidy ht rfl rfl (resolveAll_forms hr hxs)
  case truth d n =>
    have ⟨t, ht, h⟩ := bind_eq_ok.mp h
    have ⟨x, hx, h⟩ := bind_eq_ok.mp h
    cases h
    have hx := resolve_forms hr hx
    exact predicate_forms htidy ht rfl rfl (List.forall_mem_singleton.mpr hx)
  case not d =>
    have ⟨x, hx, h⟩ := bind_eq_ok.mp h
    exact negation_forms htidy (resolve_forms hr hx) h

theorem resolveArguments_forms (hr : r.Prepared roots) {name : String} {f : Function}
    (hf : r.requireFunction name = .ok f) {as : Document.Arguments} {e : Expression}
    (h : as.resolve r roots f = .ok e) : e.Forms r roots := by
  have hf : r.function? name = some f := by
    rw [Registry.requireFunction] at hf
    split at hf <;> cases hf
    assumption
  cases as <;> rw [Arguments.resolve] at h <;> have ⟨xs, hxs, h⟩ := bind_eq_ok.mp h
  case positional ds =>
    have hcall := Function.calls_of_callPositional (hr.numbered _ _ hf) (mapError_eq_ok.mp h)
    exact Expression.forms_of_calls hr hf hcall (resolveAll_forms hr hxs)
  case named ds =>
    have hcall := Function.calls_of_callNamed (mapError_eq_ok.mp h)
    apply Expression.forms_of_calls hr hf hcall
    rw [List.forall_mem_map]
    exact resolveNamed_forms hr hxs

theorem resolveAll_forms (hr : r.Prepared roots) {ds : List Document} {es : List Expression}
    (h : resolveAll r roots ds = .ok es) : ∀ e ∈ es, e.Forms r roots := by
  cases ds <;> rw [resolveAll] at h
  case nil =>
    cases h
    nofun
  case cons d ds =>
    have ⟨x, hx, h⟩ := bind_eq_ok.mp h
    have ⟨xs, hxs, h⟩ := bind_eq_ok.mp h
    cases h
    rw [List.forall_mem_cons]
    exact ⟨resolve_forms hr hx, resolveAll_forms hr hxs⟩

theorem resolveNamed_forms (hr : r.Prepared roots) {ds : List (String × Document)}
    {es : List (String × Expression)} (h : resolveNamed r roots ds = .ok es) :
    ∀ e ∈ es, e.2.Forms r roots := by
  cases ds
  case nil =>
    cases h
    nofun
  case cons d ds =>
    have ⟨name, d⟩ := d
    rw [resolveNamed] at h
    have ⟨x, hx, h⟩ := bind_eq_ok.mp h
    have ⟨xs, hxs, h⟩ := bind_eq_ok.mp h
    cases h
    rw [List.forall_mem_cons]
    exact ⟨resolve_forms hr hx, resolveNamed_forms hr hxs⟩

end

end Document

theorem Configuration.prepared_of_bound {c : Configuration} {roots : Roots} (h : c.registry = .ok r)
    (hb : roots.Bound r) : r.Prepared roots where
  tidy   := (c.registry_built h).tidy
  closed := (c.registry_built h).closed
  numbered name f hf := by
    rw [Registry.function?, (c.registry_built h).functions] at hf
    exact Standard.numbered (Registry.mem_standard_functions hf).2
  roots  := hb

theorem Configuration.prepared {c : Configuration} {roots : Roots} (h : c.registry = .ok r)
    (hb : c.bind r = .ok roots) : r.Prepared roots :=
  prepared_of_bound h (bind_bound (c.registry_built h).tidy hb)

-- If a configuration has a registry and roots, then all the nodes of what a document resolves to are well
-- formed.
theorem Document.resolve_wellFormed {c : Configuration} {roots : Roots} {d : Document} {e : Expression}
    (h : c.registry = .ok r) (hb : c.bind r = .ok roots) (hd : d.resolve r roots = .ok e) :
    ∀ n ∈ e.nodes, n.WellFormed r roots :=
  resolve_forms (Configuration.prepared h hb) hd

-- The negated price is not below the length of a string.
theorem Document.resolve_wellFormed_price :
    Priced.configuration.registry = .ok Priced.registry ∧
      Priced.configuration.bind Priced.registry = .ok Priced.roots ∧
      ∃ e, (not (comparison "<" (negative (path "item" ["price"]))
          (call "length" (.named [("string", literal (.string "ab") none)])) false)).resolve
          Priced.registry Priced.roots = .ok e ∧
        e.nodes.length = 5 ∧ ∀ n ∈ e.nodes, n.WellFormed Priced.registry Priced.roots := by
  let d := not (comparison "<" (negative (path "item" ["price"]))
    (call "length" (.named [("string", literal (.string "ab") none)])) false)
  let price := Expression.path ⟨Standard.integer, "item", [Priced.price]⟩
  let length := Expression.call Standard.integer Standard.length
    [(⟨"string", 0, Standard.string, none⟩, .literal Standard.string (.string "ab"))]
  let e := Expression.comparison Standard.boolean .less (.signed Standard.integer price true) length true
  have hd : d.resolve Priced.registry Priced.roots = .ok e := by with_unfolding_all rfl
  exact ⟨Priced.declares, Priced.binds, e, hd, rfl, resolve_wellFormed Priced.declares Priced.binds hd⟩

end Trivalent
