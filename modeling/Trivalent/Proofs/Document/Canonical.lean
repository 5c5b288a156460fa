import Trivalent.Document.Reading
import Trivalent.Proofs.Dictionary

/-!
# Canonical documents

The documents that are read of JSON hold their literals in canonical form and their named arguments sorted.
-/

namespace Trivalent

theorem of_mapM_eq_some {as : List α} {f : α → Option β} (h : as.mapM f = some bs) (hb : b ∈ bs) :
    ∃ a ∈ as, f a = some b := by
  induction as generalizing bs
  case nil =>
    cases h
    contradiction
  case cons a as hi =>
    rw [List.mapM_cons] at h
    have ⟨c, hc, h⟩ := Option.bind_eq_some_iff.mp h
    have ⟨cs, hcs, h⟩ := Option.bind_eq_some_iff.mp h
    cases h
    cases hb
    case head    => exact ⟨a, by simp, hc⟩
    case tail hb =>
      have ⟨a', hm, ha⟩ := hi hcs hb
      exact ⟨a', List.mem_cons_of_mem _ hm, ha⟩

namespace Json

mutual

theorem canonical_canonical (json : Json) : json.canonical.canonical = json.canonical := by
  match json with
  | array items    => simp only [canonical, canonicalItems_canonicalItems items]
  | object members =>
    have hd : ∀ e ∈ Dictionary.ofList (canonicalMembers members), e.2.canonical = e.2 :=
      fun e he => canonical_of_mem members e (Dictionary.mem_ofList he)
    simp only [canonical]
    rw [canonicalMembers_eq_mapValues (Dictionary.ofList _), Dictionary.mapValues_of_mem hd,
      Dictionary.ofList_ofList]
  | null     => rfl
  | bool _   => rfl
  | number _ => rfl
  | string _ => rfl

theorem canonicalItems_canonicalItems (items : List Json) :
    canonicalItems (canonicalItems items) = canonicalItems items := by
  match items with
  | []            => rfl
  | item :: items =>
    simp only [canonicalItems, canonical_canonical item, canonicalItems_canonicalItems items]

theorem canonical_of_mem (members : List (String × Json)) :
    ∀ e ∈ canonicalMembers members, e.2.canonical = e.2 := by
  match members with
  | []                      => exact nofun
  | (name, json) :: members =>
    exact List.forall_mem_cons.mpr ⟨canonical_canonical json, canonical_of_mem members⟩

end

end Json

namespace Document

-- A document as it is held: its literals are in canonical form, and its named arguments are sorted.
inductive Canonical : Document → Prop
  | literal    : v.canonical = v → Canonical (.literal v t)
  | collection : (∀ d ∈ ds, Canonical d) → Canonical (.collection ds t)
  | path       : Canonical (.path r as)
  | negative   : Canonical e → Canonical (.negative e)
  | arithmetic : Canonical l → Canonical r → Canonical (.arithmetic o l r t)
  | positional : (∀ d ∈ ds, Canonical d) → Canonical (.call f (.positional ds))
  | named      : Dictionary.Sorted ds → (∀ e ∈ ds, Canonical e.2) → Canonical (.call f (.named ds))
  | comparison : Canonical l → Canonical r → Canonical (.comparison o l r n)
  | between    : Canonical e → Canonical l → Canonical u → Canonical (.between e l u n)
  | member     : Canonical e → (∀ d ∈ ds, Canonical d) → Canonical (.member e ds n)
  | isNull     : Canonical e → Canonical (.isNull e n)
  | isEmpty    : Canonical e → Canonical (.isEmpty e n)
  | compound   : (∀ d ∈ ds, Canonical d) → Canonical (.compound c ds n)
  | truth      : Canonical e → Canonical (.truth e n)
  | not        : Canonical e → Canonical (.not e)

-- All that a JSON value can be read as is canonical.
structure Reading.Canonical (r : Reading) : Prop where
  document  : r.document = some d → d.Canonical
  documents : r.documents = some ds → ∀ d ∈ ds, Document.Canonical d
  named     : r.named = some ds → Dictionary.Sorted ds ∧ ∀ e ∈ ds, Document.Canonical e.2

namespace Fields

variable {fields : Fields} {name : String}

def Canonical (fields : Fields) : Prop :=
  ∀ name r, fields name = some r → r.Canonical

theorem canonical_of_value? (h : fields.value? name = some v) : v.canonical = v := by
  have ⟨json, _, hv⟩ := Option.map_eq_some_iff.mp h
  exact hv ▸ json.canonical_canonical

theorem Canonical.document (hf : fields.Canonical) (h : fields.document? name = some d) :
    d.Canonical := by
  have ⟨r, hr, hd⟩ := Option.bind_eq_some_iff.mp h
  exact (hf name r hr).document hd

theorem Canonical.documents (hf : fields.Canonical) (h : fields.documents? name = some ds) :
    ∀ d ∈ ds, d.Canonical := by
  have ⟨r, hr, hd⟩ := Option.bind_eq_some_iff.mp h
  exact (hf name r hr).documents hd

theorem Canonical.call (hf : fields.Canonical) (h : fields.arguments? name = some as) :
    (Document.call f as).Canonical := by
  simp only [arguments?] at h
  split at h
  case h_1 =>
    cases h
    exact .positional nofun
  case h_2 r hr =>
    rw [Option.or_eq_some_iff] at h
    cases h
    case inl h =>
      have ⟨ds, hd, h⟩ := Option.map_eq_some_iff.mp h
      exact h ▸ .positional ((hf name r hr).documents hd)
    case inr h =>
      have ⟨ds, hd, h⟩ := Option.map_eq_some_iff.mp h.2
      have ⟨hs, hd⟩ := (hf name r hr).named hd
      exact h ▸ .named hs hd

theorem Canonical.assemble {k : Kind} (hf : fields.Canonical) (h : fields.assemble? k = some d) :
    d.Canonical := by
  cases k <;> simp only [assemble?, Option.bind_eq_bind, Option.bind_eq_some_iff] at h
  case literal =>
    have ⟨v, hv, t, ht, h⟩ := h
    cases h
    exact .literal (canonical_of_value? hv)
  case collection =>
    have ⟨ds, hds, t, _, h⟩ := h
    cases h
    exact .collection (hf.documents hds)
  case path =>
    have ⟨_, _, _, _, h⟩ := h
    cases h
    exact .path
  case negative =>
    have ⟨e, he, h⟩ := h
    cases h
    exact .negative (hf.document he)
  case arithmetic =>
    have ⟨o, _, l, hl, r, hr, t, _, h⟩ := h
    cases h
    exact .arithmetic (hf.document hl) (hf.document hr)
  case function =>
    have ⟨f, _, as, has, h⟩ := h
    cases h
    exact hf.call has
  case comparison =>
    have ⟨o, _, l, hl, r, hr, n, _, h⟩ := h
    cases h
    exact .comparison (hf.document hl) (hf.document hr)
  case between =>
    have ⟨e, he, l, hl, u, hu, n, _, h⟩ := h
    cases h
    exact .between (hf.document he) (hf.document hl) (hf.document hu)
  case «in» =>
    have ⟨e, he, ds, hds, n, _, h⟩ := h
    cases h
    exact .member (hf.document he) (hf.documents hds)
  case isNull =>
    have ⟨e, he, n, _, h⟩ := h
    cases h
    exact .isNull (hf.document he)
  case isEmpty =>
    have ⟨e, he, n, _, h⟩ := h
    cases h
    exact .isEmpty (hf.document he)
  case and =>
    have ⟨ds, hds, n, _, h⟩ := h
    cases h
    exact .compound (hf.documents hds)
  case or =>
    have ⟨ds, hds, n, _, h⟩ := h
    cases h
    exact .compound (hf.documents hds)
  case predicate =>
    have ⟨e, he, n, _, h⟩ := h
    cases h
    exact .truth (hf.document he)
  case not =>
    have ⟨e, he, h⟩ := h
    cases h
    exact .not (hf.document he)

theorem canonical_find? {entries : List (String × Reading)} (h : ∀ e ∈ entries, e.2.Canonical) :
    Fields.Canonical (Dictionary.find? entries) :=
  fun _ _ hr => h _ (Dictionary.mem_of_find? hr)

end Fields

namespace Reading

theorem canonical_scalar (json : Json) : (scalar json).Canonical :=
  ⟨nofun, nofun, nofun⟩

theorem canonical_ofArray {items : List Reading} (h : ∀ r ∈ items, r.Canonical) (json : Json) :
    (ofArray json items).Canonical where
  document {d} hd := by
    cases items
    case nil => cases hd
    case cons tag values =>
      have ⟨k, _, hd⟩ := Option.bind_eq_some_iff.mp hd
      split at hd
      case isTrue =>
        refine Fields.Canonical.assemble (Fields.canonical_find? fun e he => ?_) hd
        exact h _ (List.mem_cons_of_mem _ (List.of_mem_zip he).2)
      case isFalse => contradiction
  documents hds d hd := by
    have ⟨r, hr, hd⟩ := of_mapM_eq_some hds hd
    exact (h r hr).document hd
  named := nofun

theorem canonical_ofObject {members : List (String × Reading)} (h : ∀ m ∈ members, m.2.Canonical)
    (json : Json) : (ofObject json members).Canonical where
  document {d} hd := by
    have ⟨tag, _, hd⟩ := Option.bind_eq_some_iff.mp hd
    have ⟨k, _, hd⟩ := Option.bind_eq_some_iff.mp hd
    split at hd
    case isTrue  => exact Fields.Canonical.assemble (Fields.canonical_find? h) hd
    case isFalse => contradiction
  documents := nofun
  named {ds} hds := by
    have ⟨entries, he, hds⟩ := Option.map_eq_some_iff.mp hds
    refine hds ▸ ⟨Dictionary.sorted_ofList entries, fun e hm => ?_⟩
    have ⟨m, hm, he⟩ := of_mapM_eq_some he (Dictionary.mem_ofList hm)
    have ⟨d, hd, he⟩ := Option.map_eq_some_iff.mp he
    exact he ▸ (h m hm).document hd

mutual

theorem canonical_ofJson (json : Json) : (ofJson json).Canonical := by
  match json with
  | .array items    => exact canonical_ofArray (canonical_ofItems items) _
  | .object members => exact canonical_ofObject (canonical_ofMembers members) _
  | .null           => exact canonical_scalar _
  | .bool _         => exact canonical_scalar _
  | .number _       => exact canonical_scalar _
  | .string _       => exact canonical_scalar _

theorem canonical_ofItems (items : List Json) : ∀ r ∈ ofItems items, r.Canonical := by
  match items with
  | []            => exact nofun
  | item :: items => exact List.forall_mem_cons.mpr ⟨canonical_ofJson item, canonical_ofItems items⟩

theorem canonical_ofMembers (members : List (String × Json)) : ∀ m ∈ ofMembers members, m.2.Canonical := by
  match members with
  | []                   => exact nofun
  | (_, json) :: members =>
    exact List.forall_mem_cons.mpr ⟨canonical_ofJson json, canonical_ofMembers members⟩

end

end Reading

theorem canonical_of_ofJson? (h : ofJson? json = some d) : d.Canonical :=
  (Reading.canonical_ofJson json).document h

end Document

end Trivalent
