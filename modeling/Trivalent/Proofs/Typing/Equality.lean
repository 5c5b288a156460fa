import Trivalent.Expression.Equality
import Trivalent.Proofs.Document.Extension
import Trivalent.Proofs.Registry.Owned
import Trivalent.Proofs.Typing.WellFormed
import Trivalent.Proofs.Value

/-!
# Equality of resolved trees

Equality of trees compares types, attributes, parameters and functions by their names only. Within one registry
the names tell everything else: trees that documents resolve to are equal only if they are the same tree, or if
they differ in doubles that are equal as numbers. Whatever is asked of one of two equal trees without doubles, the
other one gives the same answer.
-/

namespace Trivalent

namespace Registry

variable {r : Registry} {s t : DataType} {f g : Function}

theorem Has.same_iff (hs : r.Has s) (ht : r.Has t) : s.same t ↔ s = t := by
  constructor
  case mp =>
    intro h
    simp only [DataType.same, Bool.and_eq_true, beq_iff_eq] at h
    exact hs.eq ht h.1
  case mpr =>
    rintro rfl
    simp [DataType.same]

theorem function_same_iff (hf : r.function? f.name = some f) (hg : r.function? g.name = some g) :
    f.same g ↔ f = g := by
  rw [Function.same, beq_iff_eq]
  constructor
  case mp =>
    intro h
    rw [h, hg] at hf
    exact (Option.some.inj hf).symm
  case mpr => exact congrArg Function.name

-- All attributes of a chain from a registered type are those of registered types.
theorem Closed.offers_of_chain (h : r.Closed) (ht : r.Has t) (hc : Path.Chain t as last) : ∀ a ∈ as, r.Offers a := by
  induction hc
  case nil => nofun
  case cons ha _ hi =>
    rw [List.forall_mem_cons]
    exact ⟨⟨_, ht, ha⟩, hi (h.types _ _ ht _ (DataType.mem_parts_of_attribute? ha))⟩

end Registry

theorem Function.Numbered.same_iff {f : Function} {p q : Parameter} (hf : f.Numbered) (hp : p ∈ f.parameters)
    (hq : q ∈ f.parameters) : p.same q ↔ p = q := by
  constructor
  case mp =>
    intro h
    simp only [Parameter.same, Bool.and_eq_true, beq_iff_eq] at h
    have hp := (getElem?_eq_some hf).mpr ⟨hp, rfl⟩
    have hq := (getElem?_eq_some hf).mpr ⟨hq, rfl⟩
    rw [h.1, hq] at hp
    exact (Option.some.inj hp).symm
  case mpr =>
    rintro rfl
    simp [Parameter.same]

theorem Path.same_iff (p q : Path) :
    p.same q ↔ p.type.same q.type ∧ p.root = q.root ∧
      List.Forall₂ (fun a b => a.same b) p.attributes q.attributes := by
  simp only [Path.same, Bool.and_eq_true, beq_iff_eq, List.all_eq_true, List.forall₂_iff_zip, Prod.forall, and_assoc]

namespace Expression

variable {r : Registry} {roots roots' : Roots} {a b e : Expression}

theorem sameItems_iff {es fs : List Expression} : sameItems es fs ↔ List.Forall₂ (·.same ·) es fs := by
  induction es generalizing fs
  case nil         => cases fs <;> simp [sameItems]
  case cons _ _ hi => cases fs <;> simp [sameItems, hi]

theorem sameArguments_iff {as bs : List (Parameter × Expression)} :
    sameArguments as bs ↔ List.Forall₂ (fun a b => a.1.same b.1 ∧ a.2.same b.2) as bs := by
  induction as generalizing bs
  case nil         => cases bs <;> simp [sameArguments]
  case cons _ _ hi => cases bs <;> simp [sameArguments, hi]

-- There are no doubles in the literals of the tree.
def Discrete (e : Expression) : Prop :=
  ∀ t v, literal t v ∈ e.nodes → v.Discrete

theorem Discrete.child (h : e.Discrete) (hc : c ∈ e.children) : c.Discrete :=
  fun t v hm => h t v (mem_nodes_of_mem_children hc hm)

theorem path_same_iff {p q : Path} (hr : r.Prepared roots) (hr' : r.Prepared roots') (ho : r.Owned)
    (hp : (path p).WellFormed r roots) (hq : (path q).WellFormed r roots') : p.same q ↔ p = q := by
  have ⟨s, hs, _, hcp⟩ := hp.path p rfl
  have ⟨t, ht, _, hcq⟩ := hq.path q rfl
  have hop := hr.closed.offers_of_chain (hr.roots _ _ hs).1 hcp
  have hoq := hr.closed.offers_of_chain (hr'.roots _ _ ht).1 hcq
  have hpq : p.type.same q.type ↔ p.type = q.type := hp.type.same_iff hq.type
  have has := forall₂_iff_eq fun a ha b hb => ho.same_iff (hop a ha) (hoq b hb)
  rw [Path.same_iff, hpq, has]
  cases p
  cases q
  rw [Path.mk.injEq]

theorem call_same_iff (hr : r.Prepared roots) (ha : (call t f as).WellFormed r roots)
    (hb : (call u g bs).WellFormed r roots') (hs : ∀ a ∈ as, ∀ b ∈ bs, a.2.same b.2 ↔ a.2 = b.2) :
    (call t f as).same (call u g bs) ↔ call t f as = call u g bs := by
  have ⟨hf, _, has⟩ := ha.call t f as rfl
  have ⟨hg, _, hbs⟩ := hb.call u g bs rfl
  have ht : t.same u ↔ t = u := ha.type.same_iff hb.type
  simp only [same, Bool.and_eq_true, call.injEq, and_assoc]
  rw [ht, Registry.function_same_iff hf hg, sameArguments_iff]
  refine and_congr_right fun _ => and_congr_right fun hfg => ?_
  subst hfg
  refine forall₂_iff_eq fun x hx y hy => ?_
  have hp := (hr.numbered _ _ hf).same_iff (has.parameters x hx) (hbs.parameters y hy)
  rw [hp, hs x hx y hy, Prod.ext_iff]

-- The induction is over the tree. At each node, names that are compared stand for what is registered under them.
theorem same_iff (hr : r.Prepared roots) (hr' : r.Prepared roots') (ho : r.Owned) (ha : a.Forms r roots)
    (hb : b.Forms r roots') (hn : a.Discrete) : a.same b ↔ a = b := by
  induction a using children_induction generalizing b
  case node a hi =>
    have ⟨hwa, hca⟩ := forms_iff.mp ha
    have ⟨hwb, hcb⟩ := forms_iff.mp hb
    have ht : a.type.same b.type ↔ a.type = b.type := hwa.type.same_iff hwb.type
    have hs : ∀ c ∈ a.children, ∀ d ∈ b.children, c.same d ↔ c = d :=
      fun c hc d hd => hi c hc (hca c hc) (hcb d hd) (hn.child hc)
    cases a <;> cases b <;> simp only [same, reduceCtorEq, Bool.false_eq_true]
    case path.path => rw [path_same_iff hr hr' ho hwa hwb, path.injEq]
    case call.call =>
      exact call_same_iff hr hwa hwb fun _ ha _ hb => hs _ (List.mem_map_of_mem ha) _ (List.mem_map_of_mem hb)
    all_goals
      simp only [type] at ht
      simp only [children, List.forall_mem_cons, List.not_mem_nil, false_implies, implies_true, and_true] at hs
      simp only [Bool.and_eq_true, beq_iff_eq, and_assoc, ht, hs]
    case literal.literal t v _ _ => rw [Value.same_iff (hn t v (mem_nodes_self _)), literal.injEq]
    case collection.collection => rw [sameItems_iff, forall₂_iff_eq hs, collection.injEq]
    case signed.signed         => rw [signed.injEq]
    case arithmetic.arithmetic => rw [arithmetic.injEq]
    case comparison.comparison => rw [comparison.injEq]
    case between.between       => rw [between.injEq]
    case member.member =>
      rw [sameItems_iff, forall₂_iff_eq fun c hc => (hs.2 c hc).2, member.injEq]
    case isNull.isNull         => rw [isNull.injEq]
    case isEmpty.isEmpty       => rw [isEmpty.injEq]
    case compound.compound     => rw [sameItems_iff, forall₂_iff_eq hs, compound.injEq]
    case truth.truth           => rw [truth.injEq]

end Expression

namespace Roots

variable {r : Registry} {roots : Roots}

-- The same names and types. All objects are null.
def typed (roots : Roots) : Roots :=
  ⟨roots.types, roots.types.mapValues fun _ => .null⟩

theorem Registered.bound (h : roots.Registered r) : roots.typed.Bound r := by
  intro name t ht
  refine ⟨h name t ht, ?_⟩
  have ht : roots.types.find? name = some t := ht
  simp [object?, typed, Dictionary.find?_mapValues, ht]

end Roots

namespace Document

variable {r : Registry} {roots : Roots}

-- Objects do not matter for what a document resolves to.
theorem resolve_typed {d : Document} {e : Expression} (h : d.resolve r roots = .ok e) :
    d.resolve r roots.typed = .ok e := by
  have hr : roots.Extends roots.typed := fun _ _ ht => ht
  exact resolve_persists (.refl r) hr d e h

-- If two documents resolve to equal trees, be it with different roots of registered types, and the literals of
-- the trees have no doubles, then the trees are the same: they have one type and do the same from every store.
theorem evaluate_interchangeable {c : Configuration} {roots₁ roots₂ : Roots} {d₁ d₂ : Document}
    {a b : Expression} (h : c.registry = .ok r) (h₁ : roots₁.Registered r) (h₂ : roots₂.Registered r)
    (ha : d₁.resolve r roots₁ = .ok a) (hb : d₂.resolve r roots₂ = .ok b) (hn : a.Discrete) :
    (a.same b ↔ a = b) ∧
      (a.same b → a.type = b.type ∧ ∀ host roots s, a.evaluate host roots s = b.evaluate host roots s) := by
  have hp₁ := c.prepared_of_bound h h₁.bound
  have hp₂ := c.prepared_of_bound h h₂.bound
  have hab : a.same b ↔ a = b :=
    Expression.same_iff hp₁ hp₂ (c.registry_owned h) (resolve_forms hp₁ (resolve_typed ha))
      (resolve_forms hp₂ (resolve_typed hb)) hn
  refine ⟨hab, fun hs => ?_⟩
  cases hab.mp hs
  exact ⟨rfl, fun _ _ _ => rfl⟩

-- A comparison that is negated from outside or by itself, with an argument under its name or in its place.
theorem evaluate_interchangeable_price :
    let d₁ := not (comparison "<" (negative (path "item" ["price"]))
      (call "length" (.named [("string", literal (.string "ab") none)])) false)
    let d₂ := comparison "<" (negative (path "item" ["price"]))
      (call "LENGTH" (.positional [literal (.string "ab") (some "STRING")])) true
    let roots := Priced.roots.bind "size" Standard.integer (.integer 2)
    Priced.configuration.registry = .ok Priced.registry ∧
      Priced.configuration.bind Priced.registry = .ok Priced.roots ∧
      Priced.roots.Registered Priced.registry ∧ roots.Registered Priced.registry ∧
      ∃ a b, d₁.resolve Priced.registry Priced.roots = .ok a ∧ d₂.resolve Priced.registry roots = .ok b ∧
        a.Discrete ∧ a.same b ∧ a.type = b.type ∧
        ∀ host roots s, a.evaluate host roots s = b.evaluate host roots s := by
  intro d₁ d₂ roots
  let price := Expression.path ⟨Standard.integer, "item", [Priced.price]⟩
  let length := Expression.call Standard.integer Standard.length
    [(⟨"string", 0, Standard.string, none⟩, .literal Standard.string (.string "ab"))]
  let e := Expression.comparison Standard.boolean .less (.signed Standard.integer price true) length true
  have h₁ : Priced.roots.Registered Priced.registry := fun name t ht =>
    (Configuration.bind_bound (Configuration.registry_built Priced.declares).tidy Priced.binds name t ht).1
  have h₂ : roots.Registered Priced.registry := h₁.bind (by with_unfolding_all rfl)
  have hd₁ : d₁.resolve Priced.registry Priced.roots = .ok e := by with_unfolding_all rfl
  have hd₂ : d₂.resolve Priced.registry roots = .ok e := by with_unfolding_all rfl
  have hn : e.Discrete := by
    intro t v hm
    simp [e, price, length, Expression.nodes, Expression.nodesOfArguments] at hm
    rw [hm.2, Value.Discrete, throughout_iff]
    simp [Value.parts]
  have hs : e.same e := by with_unfolding_all rfl
  have heq := (evaluate_interchangeable Priced.declares h₁ h₂ hd₁ hd₂ hn).2 hs
  exact ⟨Priced.declares, Priced.binds, h₁, h₂, e, e, hd₁, hd₂, hn, hs, heq⟩

end Document

end Trivalent
