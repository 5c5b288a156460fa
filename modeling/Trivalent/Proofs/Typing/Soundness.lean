import Trivalent.Proofs.Context
import Trivalent.Proofs.Typing.Nodes
import Trivalent.Proofs.Typing.Resolved

/-!
# Soundness of types

A document that resolves evaluates to values of its declared type only. If it is well typed as well, it
fails by division by zero or by overflow only.
-/

namespace Trivalent

namespace Expression

mutual

-- Every node has a meaning for the types of its operands. The first item of a collection does not bind
-- the others, and every expression can be asked whether it is null.
def isWellTyped : Expression → Bool
  | literal ..           => true
  | collection _ is      => areWellTyped is
  | path _               => true
  | signed _ e _         => e.type.isSigned && e.isWellTyped
  | arithmetic _ o l r   => o.admits l.type r.type && l.isWellTyped && r.isWellTyped
  | call _ _ as          => areAccepted as
  | comparison _ c l r _ => c.admits l.type r.type && l.isWellTyped && r.isWellTyped
  | between _ e l u _    =>
    Comparison.greaterOrEqual.admits e.type l.type && Comparison.lessOrEqual.admits e.type u.type &&
      e.isWellTyped && l.isWellTyped && u.isWellTyped
  | member _ e is _      =>
    is.all (Comparison.equal.admits e.type ·.type) && e.isWellTyped && areWellTyped is
  | isNull _ e _         => e.isWellTyped
  | isEmpty _ e _        => e.type.kind = .collection && e.isWellTyped
  | compound _ _ ps _    => ps.all (·.type.name = "BOOLEAN") && areWellTyped ps
  | truth _ e _          => e.type.name = "BOOLEAN" && e.isWellTyped

def areWellTyped : List Expression → Bool
  | []      => true
  | e :: es => e.isWellTyped && areWellTyped es

def areAccepted : List (Parameter × Expression) → Bool
  | []           => true
  | (p, e) :: as => p.accepts e.type && e.isWellTyped && areAccepted as

end

theorem areWellTyped_iff {es : List Expression} : areWellTyped es ↔ ∀ e ∈ es, e.isWellTyped := by
  induction es
  case nil          => simp [areWellTyped]
  case cons _ _ hi  => simp [areWellTyped, hi]

theorem areAccepted_iff {as : List (Parameter × Expression)} :
    areAccepted as ↔ ∀ a ∈ as, a.1.accepts a.2.type ∧ a.2.isWellTyped := by
  induction as
  case nil         => simp [areAccepted]
  case cons _ _ hi => simp [areAccepted, hi, and_assoc]

variable {registry : Registry} {roots : Roots} {e : Expression} {host : Host}

-- The children of a node. That the node is well typed, which `W` says, includes that they are.
theorem operands_deliver {W : Prop} {es : List Expression} (ht : ∀ e ∈ es, registry.Has e.type)
    (hd : ∀ e ∈ es, (e.operand host roots).Delivers fun err => e.isWellTyped → err.IsArithmetic)
    (hw : W → ∀ e ∈ es, e.isWellTyped) :
    ∀ o ∈ operands host roots es, registry.Has o.type ∧ o.Delivers fun err => W → err.IsArithmetic := by
  intro o ho
  rw [operands_eq_map] at ho
  have ⟨e, he, ho⟩ := List.mem_map.mp ho
  subst ho
  exact ⟨ht e he, (hd e he).mono fun _ h hW => h (hw hW e he)⟩

theorem mem_operands {es : List Expression} (h : o ∈ operands host roots es) :
    ∃ e ∈ es, o.type = e.type := by
  rw [operands_eq_map] at h
  have ⟨e, he, ho⟩ := List.mem_map.mp h
  exact ⟨e, he, ho ▸ rfl⟩

-- The induction is over what is resolved, with one case for each node. The value of a node conforms
-- whether or not the node is well typed, as its errors are what depends on this.
theorem operand_delivers (hr : registry.Configured) (hroots : roots.Registered registry)
    (hc : roots.Conform) (h : e.Resolved registry roots) :
    (e.operand host roots).Delivers fun err => e.isWellTyped → err.IsArithmetic := by
  induction h
  case literal hv => exact .pure ⟨rfl, hv⟩
  case path p t names ht hf =>
    have hw := Evaluation.walk_ends host roots hr (hroots _ _ ht) (hc.object ht) hf
    exact hw.widen fun _ h => h.elim
  case collection t items _ hk hi hd =>
    have ho := operands_deliver (fun e he => (hi e he).has hr hroots) hd
      (W := (collection t items).isWellTyped) areWellTyped_iff.mp
    have ⟨element, hs⟩ := DataType.collection_of_kind hk
    exact (Evaluation.items_ends fun o hm => (ho o hm).2).bind fun _ _ => .pure ⟨rfl, .collection hs⟩
  case signed e n h hd =>
    have hw (h : (signed e.type e n).isWellTyped) : e.type.isSigned ∧ e.isWellTyped := by
      simpa [isWellTyped] using h
    have hs := Evaluation.signed_ends host hr (h.has hr hroots)
      (hd.mono fun _ he h => he (hw h).2) (fun _ he h => he (hw h).1) n
    exact hs.map fun _ hv => ⟨rfl, hv⟩
  case arithmetic l r t o hl hr' ht hdl hdr =>
    have hw (h : (arithmetic t o l r).isWellTyped) :
        (o.admits l.type r.type ∧ l.isWellTyped) ∧ r.isWellTyped := by
      simpa [isWellTyped] using h
    have ha := Evaluation.arithmetic_ends host hr (hl.has hr hroots) (hr'.has hr hroots) ht
      (hdl.mono fun _ he h => he (hw h).1.2) (hdr.mono fun _ he h => he (hw h).2)
      (fun _ he h => he (hw h).1.1)
    exact ha.map fun _ hv => ⟨rfl, hv⟩
  case call f t as hf ht hp hx hd =>
    have hw (h : (call t f as).isWellTyped) := areAccepted_iff.mp h
    have ha : ∀ a ∈ as.map fun a => (a.1, a.2.operand host roots), a.1 ∈ f.parameters ∧
        registry.Has a.2.type ∧ a.2.Delivers fun err => (call t f as).isWellTyped → err.IsArithmetic := by
      simp only [List.mem_map, forall_exists_index, and_imp, forall_apply_eq_imp_iff₂]
      exact fun a ha =>
        ⟨hp a ha, (hx a ha).has hr hroots, (hd a ha).mono fun _ he h => he (hw h a ha).2⟩
    have hacc (h : (call t f as).isWellTyped) :
        ∀ a ∈ as.map fun a => (a.1, a.2.operand host roots), a.1.accepts a.2.type := by
      simp only [List.mem_map, forall_exists_index, and_imp, forall_apply_eq_imp_iff₂]
      exact fun a ha => (hw h a ha).1
    rw [← argumentOperands_eq_map] at ha hacc
    exact Evaluation.call_ends host hr hf ht ha hacc (fun _ hn h => absurd h hn) _
  case comparison l r c n hl hr' hdl hdr =>
    have hw (h : (comparison Standard.boolean c l r n).isWellTyped) :
        (c.admits l.type r.type ∧ l.isWellTyped) ∧ r.isWellTyped := by
      simpa [isWellTyped] using h
    have hcmp := Evaluation.comparison_ends host hr (hl.has hr hroots) (hr'.has hr hroots)
      (hdl.mono fun _ he h => he (hw h).1.2) (hdr.mono fun _ he h => he (hw h).2)
      (fun _ hn h => absurd (hw h).1.1 hn) n
    exact hcmp.map fun t _ => ⟨rfl, Conforms.ofTruth t⟩
  case between x l u n hx hl hu hdx hdl hdu =>
    have hw (h : (between Standard.boolean x l u n).isWellTyped) :
        (((Comparison.greaterOrEqual.admits x.type l.type ∧
          Comparison.lessOrEqual.admits x.type u.type) ∧ x.isWellTyped) ∧ l.isWellTyped) ∧
          u.isWellTyped := by
      simpa [isWellTyped] using h
    have hb := Evaluation.between_ends host hr (hx.has hr hroots) (hl.has hr hroots)
      (hu.has hr hroots) (hdx.mono fun _ he h => he (hw h).1.1.2)
      (hdl.mono fun _ he h => he (hw h).1.2) (hdu.mono fun _ he h => he (hw h).2)
      (fun _ hn h => absurd (hw h).1.1.1.1 hn) (fun _ hn h => absurd (hw h).1.1.1.2 hn) n
    exact hb.map fun t _ => ⟨rfl, Conforms.ofTruth t⟩
  case member x is n hx hi hdx hdi =>
    have hw (h : (member Standard.boolean x is n).isWellTyped) :
        ((∀ i ∈ is, Comparison.equal.admits x.type i.type) ∧ x.isWellTyped) ∧ areWellTyped is := by
      simpa [isWellTyped] using h
    have ho := operands_deliver (fun e he => (hi e he).has hr hroots) hdi
      (W := (member Standard.boolean x is n).isWellTyped) fun h => areWellTyped_iff.mp (hw h).2
    have hm := Evaluation.member_ends host hr (hx.has hr hroots) ho
      (hdx.mono fun _ he h => he (hw h).1.2) (fun o hm _ hn h => ?admits) n
    case admits =>
      have ⟨i, hi, ht⟩ := mem_operands hm
      exact absurd (ht ▸ (hw h).1.1 i hi) hn
    exact hm.map fun t _ => ⟨rfl, Conforms.ofTruth t⟩
  case isNull x n hx hdx =>
    exact (Evaluation.isNull_ends hdx n).map fun _ hv => ⟨rfl, hv⟩
  case isEmpty x n hx hdx =>
    have hw (h : (isEmpty Standard.boolean x n).isWellTyped) :
        x.type.kind = .collection ∧ x.isWellTyped := by
      simpa [isWellTyped] using h
    have he := Evaluation.isEmpty_ends (hdx.mono fun _ he h => he (hw h).2)
      (fun _ hn h => absurd (hw h).1 hn) n
    exact he.map fun _ hv => ⟨rfl, hv⟩
  case compound ps c n hp hdp =>
    have hw (h : (compound Standard.boolean c ps n).isWellTyped) :
        (∀ p ∈ ps, p.type.name = "BOOLEAN") ∧ areWellTyped ps := by
      simpa [isWellTyped] using h
    have ho := operands_deliver (fun e he => (hp e he).has hr hroots) hdp
      (W := (compound Standard.boolean c ps n).isWellTyped) fun h => areWellTyped_iff.mp (hw h).2
    have hc := Evaluation.compound_ends hr c.identity ho fun o hm _ hn h => ?boolean
    case boolean =>
      have ⟨p, hp, ht⟩ := mem_operands hm
      exact absurd (ht ▸ (hw h).1 p hp) hn
    exact hc.map fun t _ => ⟨rfl, Conforms.ofTruth _⟩
  case truth x n hx hdx =>
    have hw (h : (truth Standard.boolean x n).isWellTyped) :
        x.type.name = "BOOLEAN" ∧ x.isWellTyped := by
      simpa [isWellTyped] using h
    have ht := Evaluation.truth_ends hr (hx.has hr hroots) (hdx.mono fun _ he h => he (hw h).2)
      (fun _ hn h => absurd (hw h).1 hn)
    exact ht.map fun t _ => ⟨rfl, Conforms.ofTruth _⟩

theorem evaluate_ends (host : Host) (hr : registry.Configured) (hroots : roots.Registered registry)
    (hc : roots.Conform) (h : e.Resolved registry roots) :
    (e.evaluate host roots).Ends (Conforms e.type) fun err => e.isWellTyped → err.IsArithmetic :=
  Evaluation.finish_ends host (operand_delivers hr hroots hc h)

end Expression

-- An entity with a price and a root that has one.
namespace Priced

def price : Attribute :=
  ⟨"Item", "price", Standard.integer, some .field, none⟩

def item : DataType :=
  ⟨"Item", .entity [price], none, none⟩

def configuration : Configuration where
  entities     := [("Item", [("price", "INTEGER")])]
  enumerations := []
  roots        := [("item", ⟨"Item", .object [("price", .number (.integer 3))]⟩)]

def registry : Registry :=
  Registry.standard.register item

def roots : Roots where
  types   := [("item", item)]
  objects := [("item", .object [("price", .integer 3)])]

theorem namesNoCollection : configuration.NamesNoCollection := by
  simp [Configuration.NamesNoCollection, configuration]
  decide

theorem declares : configuration.registry = .ok registry := by
  with_unfolding_all rfl

theorem binds : configuration.bind registry = .ok roots := by
  with_unfolding_all rfl

theorem conform : roots.Conform := by
  intro name t v ht hv
  simp only [Roots.type?, Roots.object?, roots, Dictionary.find?] at ht hv
  split at ht <;> cases ht
  case isTrue h =>
    cases (if_pos h).symm.trans hv
    refine .entity rfl fun name a v ha hv => ?_
    cases List.mem_singleton.mp (List.mem_of_find?_eq_some ha)
    cases List.mem_singleton.mp (Dictionary.mem_of_find? hv)
    exact .basic rfl rfl

end Priced

namespace Document

variable {c : Configuration} {registry : Registry} {roots : Roots} {d : Document} {e : Expression}

-- What a document evaluates to conforms to the declared type of the expression that it resolves to.
theorem evaluate_conforms (hn : c.NamesNoCollection) (hregistry : c.registry = .ok registry)
    (hroots : c.bind registry = .ok roots) (hc : roots.Conform) (hp : d.isPlain registry)
    (hd : d.resolve registry roots = .ok e) (host : Host) (s : Store)
    (h : (e.evaluate host roots s).outcome = .ok v) : Conforms e.type v := by
  have hr := c.registry_configured hn hregistry
  have he := resolve_resolved hr hp hd
  have hs := Expression.evaluate_ends host hr (c.bind_registered hr hroots) hc he s
  rw [h] at hs
  exact hs.value

-- The price raised by one.
theorem evaluate_conforms_price :
    ∃ e, (arithmetic "+" (path "item" ["price"]) (literal (.number (.integer 1)) none) none).resolve
        Priced.registry Priced.roots = .ok e ∧
      (e.evaluate .none Priced.roots ⟨[], ⟨0⟩⟩).outcome = .ok (.integer 4) ∧
      Conforms e.type (.integer 4) := by
  let d := arithmetic "+" (path "item" ["price"]) (literal (.number (.integer 1)) none) none
  let e := Expression.arithmetic Standard.integer .plus (.path ⟨Standard.integer, "item", [Priced.price]⟩)
    (.literal Standard.integer (.integer 1))
  have hp : d.isPlain Priced.registry := rfl
  have hd : d.resolve Priced.registry Priced.roots = .ok e := by with_unfolding_all rfl
  have he : (e.evaluate .none Priced.roots ⟨[], ⟨0⟩⟩).outcome = .ok (.integer 4) := by
    with_unfolding_all rfl
  exact ⟨e, hd, he, evaluate_conforms Priced.namesNoCollection Priced.declares Priced.binds
    Priced.conform hp hd .none ⟨[], ⟨0⟩⟩ he⟩

-- The evaluation of a well-typed document has a value or fails by division by zero or by overflow.
theorem evaluate_progress (hn : c.NamesNoCollection) (hregistry : c.registry = .ok registry)
    (hroots : c.bind registry = .ok roots) (hc : roots.Conform) (hp : d.isPlain registry)
    (hd : d.resolve registry roots = .ok e) (hw : e.isWellTyped) (host : Host) (s : Store) :
    (∃ v, (e.evaluate host roots s).outcome = .ok v) ∨
      ∃ err, (e.evaluate host roots s).outcome = .error err ∧ err.IsArithmetic := by
  have hr := c.registry_configured hn hregistry
  have he := resolve_resolved hr hp hd
  have hs := Expression.evaluate_ends host hr (c.bind_registered hr hroots) hc he s
  cases h : (e.evaluate host roots s).outcome <;> rw [h] at hs
  case ok v      => exact .inl ⟨v, rfl⟩
  case error err => exact .inr ⟨err, rfl, hs.failure hw⟩

-- One divided by the price minus three.
theorem evaluate_progress_price :
    ∃ e, (arithmetic "/" (literal (.number (.integer 1)) none)
        (arithmetic "-" (path "item" ["price"]) (literal (.number (.integer 3)) none) none)
        none).resolve Priced.registry Priced.roots = .ok e ∧ e.isWellTyped ∧
      (e.evaluate .none Priced.roots ⟨[], ⟨0⟩⟩).outcome = .error .divisionByZero ∧
      ((∃ v, (e.evaluate .none Priced.roots ⟨[], ⟨0⟩⟩).outcome = .ok v) ∨
        ∃ err, (e.evaluate .none Priced.roots ⟨[], ⟨0⟩⟩).outcome = .error err ∧ err.IsArithmetic) := by
  let d := arithmetic "/" (literal (.number (.integer 1)) none)
    (arithmetic "-" (path "item" ["price"]) (literal (.number (.integer 3)) none) none) none
  let e := Expression.arithmetic Standard.integer .divide (.literal Standard.integer (.integer 1))
    (.arithmetic Standard.integer .minus (.path ⟨Standard.integer, "item", [Priced.price]⟩)
      (.literal Standard.integer (.integer 3)))
  have hp : d.isPlain Priced.registry := rfl
  have hd : d.resolve Priced.registry Priced.roots = .ok e := by with_unfolding_all rfl
  have hw : e.isWellTyped := by with_unfolding_all rfl
  have he : (e.evaluate .none Priced.roots ⟨[], ⟨0⟩⟩).outcome = .error .divisionByZero := by
    with_unfolding_all rfl
  exact ⟨e, hd, hw, he, evaluate_progress Priced.namesNoCollection Priced.declares Priced.binds
    Priced.conform hp hd hw .none ⟨[], ⟨0⟩⟩⟩

end Document

end Trivalent
