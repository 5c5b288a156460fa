import Trivalent.Proofs.Document.Canonical
import Trivalent.Proofs.Json.Record

/-!
# Spellings of documents

However a document is spelled, be its nodes objects or arrays in any mixture, it is read as what it was
written for.
-/

namespace Trivalent

namespace Document

-- The field of a record that holds its kind.
def kindSlot (k : Kind) : Slot :=
  .text kindField k.name

mutual

-- Each node is a record of its kind and its fields.
def Spells : Document → Json → Prop
  | literal v t        => Record.Spells [kindSlot .literal, .value "value" v False, .optional "type" t]
  | collection ds t    =>
    Record.Spells
      [kindSlot .collection, .required "items" (Json.ArrayOf (SpellItems ds)), .optional "element_type" t]
  | path r as          => Record.Spells [kindSlot .path, .text "alias" r, .strings "attributes" as]
  | negative e         => Record.Spells [kindSlot .negative, .required "expression" e.Spells]
  | arithmetic o l r t =>
    Record.Spells
      [kindSlot .arithmetic, .text "operator" o, .required "left" l.Spells, .required "right" r.Spells,
       .optional "type" t]
  | call f as          =>
    Record.Spells [kindSlot .function, .text "name" f, ⟨"arguments", as.Spells, as = .positional []⟩]
  | comparison o l r n =>
    Record.Spells
      [kindSlot .comparison, .text "operator" o, .required "left" l.Spells, .required "right" r.Spells,
       .flag "negated" n]
  | between e l u n    =>
    Record.Spells
      [kindSlot .between, .required "left" e.Spells, .required "lower" l.Spells,
       .required "upper" u.Spells, .flag "negated" n]
  | member e ds n      =>
    Record.Spells
      [kindSlot .in, .required "left" e.Spells, .required "items" (Json.ArrayOf (SpellItems ds)),
       .flag "negated" n]
  | isNull e n         =>
    Record.Spells [kindSlot .isNull, .required "operand" e.Spells, .flag "negated" n]
  | isEmpty e n        =>
    Record.Spells [kindSlot .isEmpty, .required "operand" e.Spells, .flag "negated" n]
  | compound .and ds n =>
    Record.Spells [kindSlot .and, .required "predicates" (Json.ArrayOf (SpellItems ds)), .flag "negated" n]
  | compound .or ds n  =>
    Record.Spells [kindSlot .or, .required "predicates" (Json.ArrayOf (SpellItems ds)), .flag "negated" n]
  | truth e n          =>
    Record.Spells [kindSlot .predicate, .required "expression" e.Spells, .flag "negated" n]
  | not e              => Record.Spells [kindSlot .not, .required "expression" e.Spells]

-- Arguments by position are an array, arguments by name an object.
def Arguments.Spells : Document.Arguments → Json → Prop
  | .positional ds => Json.ArrayOf (SpellItems ds)
  | .named ds      => Json.ObjectOf (SpellMembers ds)

def SpellItems : List Document → List Json → Prop
  | []      => (· = [])
  | d :: ds => fun
    | []            => False
    | item :: items => d.Spells item ∧ SpellItems ds items

def SpellMembers : List (String × Document) → List (String × Json) → Prop
  | []              => (· = [])
  | (name, d) :: ds => fun
    | []                       => False
    | (name', json) :: members => name = name' ∧ d.Spells json ∧ SpellMembers ds members

end

theorem spellItems_iff : SpellItems ds items ↔ List.Forall₂ Spells ds items := by
  induction ds generalizing items
  case nil            => simp [SpellItems]
  case cons d ds hi =>
    cases items
    case nil  => simp [SpellItems]
    case cons => simp [SpellItems, hi]

theorem spellMembers_iff :
    SpellMembers ds members ↔ List.Forall₂ (fun e m => e.1 = m.1 ∧ e.2.Spells m.2) ds members := by
  induction ds generalizing members
  case nil            => simp [SpellMembers]
  case cons e ds hi =>
    cases members
    case nil  => simp [SpellMembers]
    case cons => simp [SpellMembers, hi, and_assoc]

end Document

namespace Slot

open Document (Fields Reading)

-- The field is given with a JSON value that spells it, or it is not given and has its default value.
def Read (s : Slot) (fields : Fields) : Prop :=
  (∃ json, fields s.name = some (Reading.ofJson json) ∧ s.spelled json) ∨
    (fields s.name = none ∧ s.isDefault)

end Slot

namespace Document

theorem Reading.json_ofJson (json : Json) : (Reading.ofJson json).json = json := by
  cases json <;> rfl

theorem Reading.ofItems_eq_map (items : List Json) : Reading.ofItems items = items.map Reading.ofJson := by
  induction items
  case nil          => rfl
  case cons _ _ hi  => simp [Reading.ofItems, hi]

theorem Reading.ofMembers_eq_mapValues (members : List (String × Json)) :
    Reading.ofMembers members = Dictionary.mapValues Reading.ofJson members := by
  induction members
  case nil => rfl
  case cons member _ hi =>
    have ⟨_, _⟩ := member
    simp [Reading.ofMembers, Dictionary.mapValues, hi]

theorem Kind.ofJson?_name (k : Kind) : Kind.ofJson? (.string k.name) = some k := by
  cases k <;> decide

theorem Kind.fields_nodup (k : Kind) : (kindField :: k.fields).Nodup := by
  cases k <;> decide

theorem mapM_stringItem? (ss : List String) : (ss.map Json.string).mapM Fields.stringItem? = some ss := by
  induction ss
  case nil         => rfl
  case cons _ _ hi => simp only [List.map_cons, List.mapM_cons, hi]; rfl

theorem read_of_positions {slots : List Slot} (hn : (slots.map (·.name)).Nodup)
    (h : Record.Positions slots items) :
    ∀ s ∈ slots, s.Read (Dictionary.find? ((slots.map (·.name)).zip (Reading.ofItems items))) := by
  induction slots generalizing items
  case nil => simp
  case cons first slots hi =>
    cases items
    case nil => exact fun s hs => .inr ⟨rfl, h s hs⟩
    case cons item items =>
      have ⟨hfirst, hn⟩ := List.nodup_cons.mp hn
      rw [List.forall_mem_cons]
      refine ⟨.inl ⟨item, if_pos rfl, h.1⟩, fun s hs => ?_⟩
      have hne : first.name ≠ s.name := fun he => hfirst (List.mem_map.mpr ⟨s, hs, he.symm⟩)
      have hr := hi hn h.2 s hs
      simp only [Slot.Read, List.map_cons, Reading.ofItems, List.zip_cons_cons, Dictionary.find?_cons,
        if_neg hne]
      exact hr

theorem Reading.isUnique_of_in {s : Slot} (h : s.In members) :
    isUnique (Reading.ofMembers members) s.name := by
  simp only [isUnique, ofMembers_eq_mapValues, Dictionary.mapValues, List.filter_map, List.length_map,
    decide_eq_true_eq]
  exact h.unique

theorem read_of_in {s : Slot} (h : s.In members) :
    s.Read (Dictionary.find? (Reading.ofMembers members)) := by
  rw [Slot.Read, Reading.ofMembers_eq_mapValues, Dictionary.find?_mapValues]
  cases h.find?
  case inl h =>
    have ⟨json, hj, hs⟩ := h
    exact .inl ⟨json, by rw [hj]; rfl, hs⟩
  case inr h => exact .inr ⟨by rw [h.1]; rfl, h.2⟩

-- A record of a kind and its fields is read as the document that is assembled of these fields.
theorem exists_fields {slots : List Slot} {json : Json} (k : Kind)
    (hn : slots.map (·.name) = k.fields) (h : Record.Spells (kindSlot k :: slots) json) :
    ∃ fields : Fields, ofJson? json = fields.assemble? k ∧ ∀ s ∈ slots, s.Read fields := by
  cases json
  case object members =>
    have ⟨hkind, h⟩ : (kindSlot k).In members ∧ ∀ s ∈ slots, s.In members :=
      List.forall_mem_cons.mp h
    refine ⟨_, ?_, fun s hs => read_of_in (h s hs)⟩
    have htag : ∃ r, Dictionary.find? (Reading.ofMembers members) kindField = some r ∧
        r.json = .string k.name := by
      cases read_of_in hkind
      case inl h =>
        have ⟨json, hj, hs⟩ := h
        exact ⟨_, hj, (Reading.json_ofJson json).trans hs⟩
      case inr h => exact h.2.elim
    have hunique : (kindField :: k.fields).all (Reading.isUnique (Reading.ofMembers members)) := by
      simp only [← hn, List.all_cons, List.all_map, List.all_eq_true, Bool.and_eq_true]
      exact ⟨Reading.isUnique_of_in hkind, fun s hs => Reading.isUnique_of_in (h s hs)⟩
    have ⟨r, hr, htag⟩ := htag
    simp only [ofJson?, Reading.ofJson, Reading.ofObject, Reading.ofMembers?, hr, Option.bind_eq_bind,
      Option.bind_some, htag, Kind.ofJson?_name]
    exact if_pos hunique
  case array items =>
    cases items
    case nil => exact (h (kindSlot k) (by simp)).elim
    case cons tag items =>
      have ⟨htag, h⟩ := h
      have hnodup : (slots.map (·.name)).Nodup := hn ▸ (List.nodup_cons.mp k.fields_nodup).2
      refine ⟨_, ?_, read_of_positions hnodup h⟩
      have hl : (Reading.ofItems items).length ≤ k.fields.length := by
        rw [Reading.ofItems_eq_map, List.length_map, ← hn, List.length_map]
        exact h.length_le
      cases htag
      simp only [ofJson?, Reading.ofJson, Reading.ofArray, Reading.ofItems, Reading.ofPositions?,
        Reading.scalar, Kind.ofJson?_name, hn]
      exact if_pos hl
  all_goals contradiction

theorem ofJson?_of_record {slots : List Slot} {json : Json} (k : Kind)
    (hn : slots.map (·.name) = k.fields) (h : Record.Spells (kindSlot k :: slots) json)
    (hd : ∀ fields : Fields, slots.Forall (·.Read fields) → fields.assemble? k = some d) :
    ofJson? json = some d := by
  have ⟨fields, he, hf⟩ := exists_fields k hn h
  rw [he]
  exact hd fields (List.forall_iff_forall_mem.mpr hf)

theorem documents_of_arrayOf {P : List Json → Prop} (hds : ∀ items, P items → items.mapM ofJson? = some ds)
    (h : Json.ArrayOf P json) : (Reading.ofJson json).documents = some ds := by
  cases json <;> try contradiction
  case array items =>
    have := hds items h
    simp only [Reading.ofJson, Reading.ofArray, Reading.ofItems_eq_map, List.mapM_map]
    exact this

theorem mapM_of_spellItems (hds : ∀ d ∈ ds, ∀ json, d.Spells json → ofJson? json = some d)
    (h : SpellItems ds items) : items.mapM ofJson? = some ds := by
  have h := (List.forall₂_and_left ..).mpr ⟨hds, spellItems_iff.mp h⟩
  exact mapM_eq_pure (h.imp fun d json ⟨hd, hs⟩ => hd json hs)

theorem named_of_objectOf (hsorted : Dictionary.Sorted ds)
    (hds : ∀ e ∈ ds, ∀ json, e.2.Spells json → ofJson? json = some e.2)
    (h : Json.ObjectOf (SpellMembers ds) json) :
    (Reading.ofJson json).documents = none ∧ (Reading.ofJson json).named = some ds := by
  cases json <;> try contradiction
  case object members =>
    have ⟨ordered, hp, h⟩ := h
    have ⟨entries, hm, he⟩ := exists_entries (m := Option) (f := fun m => (ofJson? m.2).map (m.1, ·))
      hsorted hp (spellMembers_iff.mp h) ?hf
    case hf =>
      intro e hm member _ ⟨hn, hs⟩
      rw [hds e hm _ hs, ← hn]
      rfl
    have hm : (Reading.ofMembers members).mapM Reading.member? = some entries := by
      rw [Reading.ofMembers_eq_mapValues, Dictionary.mapValues, List.mapM_map]
      exact hm
    simp [Reading.ofJson, Reading.ofObject, hm, he]

end Document

namespace Slot.Read

open Document (Fields Reading)

variable {fields : Fields} {name : String} {s : Slot}

theorem json? (h : s.Read fields) :
    (∃ json, fields.json? s.name = some json ∧ s.spelled json) ∨
      (fields.json? s.name = none ∧ s.isDefault) := by
  simp only [Slot.Read, Fields.json?] at h ⊢
  cases h
  case inl h =>
    have ⟨json, hj, hs⟩ := h
    exact .inl ⟨json, by simp [hj, Reading.json_ofJson], hs⟩
  case inr h => exact .inr ⟨by simp [h.1], h.2⟩

theorem text (h : (Slot.text name t).Read fields) : fields.string? name = some t := by
  rcases h.json? with ⟨json, hj, rfl⟩ | ⟨_, hd⟩
  case inl => simp_all [Slot.text, Slot.required, Fields.string?]
  case inr => exact hd.elim

theorem optional (h : (Slot.optional name t).Read fields) : fields.optional? name = some t := by
  rcases h.json? with ⟨json, hj, rfl⟩ | ⟨hn, rfl⟩
  case inl => cases t <;> simp_all [Slot.optional, Fields.optional?]
  case inr => simp_all [Slot.optional, Fields.optional?]

theorem flag (h : (Slot.flag name b).Read fields) : fields.flag? name = some b := by
  rcases h.json? with ⟨json, hj, rfl⟩ | ⟨hn, rfl⟩
  case inl => simp_all [Slot.flag, Fields.flag?]
  case inr => simp_all [Slot.flag, Fields.flag?]

theorem strings (h : (Slot.strings name ss).Read fields) : fields.strings? name = some ss := by
  rcases h.json? with ⟨json, hj, rfl⟩ | ⟨hn, rfl⟩
  case inl =>
    simp only [Slot.strings] at hj
    simp only [Fields.strings?, hj]
    exact Document.mapM_stringItem? ss
  case inr => simp_all [Slot.strings, Fields.strings?]

theorem value (h : (Slot.value name v False).Read fields) : fields.value? name = some v := by
  rcases h.json? with ⟨json, hj, rfl⟩ | ⟨_, hd⟩
  case inl => simp_all [Slot.value, Fields.value?]
  case inr => exact hd.elim

theorem document {P : Json → Prop} (hd : ∀ json, P json → Document.ofJson? json = some d)
    (h : (Slot.required name P).Read fields) : fields.document? name = some d := by
  rcases h with ⟨json, hj, hs⟩ | ⟨_, hf⟩
  case inl =>
    have := hd json hs
    simp_all [Slot.required, Fields.document?, Document.ofJson?]
  case inr => exact hf.elim

theorem documents {P : List Json → Prop} (hds : ∀ items, P items → items.mapM Document.ofJson? = some ds)
    (h : (Slot.required name (Json.ArrayOf P)).Read fields) : fields.documents? name = some ds := by
  rcases h with ⟨json, hj, hs⟩ | ⟨_, hf⟩
  case inl =>
    have := Document.documents_of_arrayOf hds hs
    simp_all [Slot.required, Fields.documents?]
  case inr => exact hf.elim

theorem positional (hds : ∀ items, Document.SpellItems ds items → items.mapM Document.ofJson? = some ds)
    (h : (Slot.mk name (Document.Arguments.Spells (.positional ds))
      (Document.Arguments.positional ds = .positional [])).Read fields) :
    fields.arguments? name = some (.positional ds) := by
  rcases h with ⟨json, hj, hs⟩ | ⟨hn, hd⟩
  case inl =>
    rw [Document.Arguments.Spells] at hs
    have := Document.documents_of_arrayOf hds hs
    simp_all [Fields.arguments?]
  case inr => simp_all [Fields.arguments?]

theorem named (hsorted : Dictionary.Sorted ds)
    (hds : ∀ e ∈ ds, ∀ json, e.2.Spells json → Document.ofJson? json = some e.2)
    (h : (Slot.mk name (Document.Arguments.Spells (.named ds))
      (Document.Arguments.named ds = .positional [])).Read fields) :
    fields.arguments? name = some (.named ds) := by
  rcases h with ⟨json, hj, hs⟩ | ⟨_, hd⟩
  case inl =>
    rw [Document.Arguments.Spells] at hs
    have := Document.named_of_objectOf hsorted hds hs
    simp_all [Fields.arguments?]
  case inr => contradiction

end Slot.Read

namespace Document

-- The induction is on the document: the spelling of a node is a record, whose fields are read as its parts.
theorem ofJson?_of_spells {d : Document} (hd : d.Canonical) :
    ∀ json, d.Spells json → ofJson? json = some d := by
  induction hd <;> intro json h
  case literal =>
    refine ofJson?_of_record .literal rfl h ?_
    rintro fields ⟨hv, ht⟩
    rw [Fields.assemble?, hv.value, ht.optional]
    rfl
  case collection hi =>
    refine ofJson?_of_record .collection rfl h ?_
    rintro fields ⟨hds, ht⟩
    rw [Fields.assemble?, hds.documents fun _ => mapM_of_spellItems hi, ht.optional]
    rfl
  case path =>
    refine ofJson?_of_record .path rfl h ?_
    rintro fields ⟨hr, has⟩
    rw [Fields.assemble?, hr.text, has.strings]
    rfl
  case negative hi =>
    refine ofJson?_of_record .negative rfl h ?_
    intro fields he
    rw [Fields.assemble?, he.document hi]
    rfl
  case arithmetic hil hir =>
    refine ofJson?_of_record .arithmetic rfl h ?_
    rintro fields ⟨ho, hl, hr, ht⟩
    rw [Fields.assemble?, ho.text, hl.document hil, hr.document hir, ht.optional]
    rfl
  case positional hi =>
    refine ofJson?_of_record .function rfl h ?_
    rintro fields ⟨hf, has⟩
    rw [Fields.assemble?, hf.text, has.positional fun _ => mapM_of_spellItems hi]
    rfl
  case named hs _ hi =>
    refine ofJson?_of_record .function rfl h ?_
    rintro fields ⟨hf, has⟩
    rw [Fields.assemble?, hf.text, has.named hs hi]
    rfl
  case comparison hil hir =>
    refine ofJson?_of_record .comparison rfl h ?_
    rintro fields ⟨ho, hl, hr, hn⟩
    rw [Fields.assemble?, ho.text, hl.document hil, hr.document hir, hn.flag]
    rfl
  case between hie hil hiu =>
    refine ofJson?_of_record .between rfl h ?_
    rintro fields ⟨he, hl, hu, hn⟩
    rw [Fields.assemble?, he.document hie, hl.document hil, hu.document hiu, hn.flag]
    rfl
  case member hie hi =>
    refine ofJson?_of_record .in rfl h ?_
    rintro fields ⟨he, hds, hn⟩
    rw [Fields.assemble?, he.document hie, hds.documents fun _ => mapM_of_spellItems hi, hn.flag]
    rfl
  case isNull hi =>
    refine ofJson?_of_record .isNull rfl h ?_
    rintro fields ⟨he, hn⟩
    rw [Fields.assemble?, he.document hi, hn.flag]
    rfl
  case isEmpty hi =>
    refine ofJson?_of_record .isEmpty rfl h ?_
    rintro fields ⟨he, hn⟩
    rw [Fields.assemble?, he.document hi, hn.flag]
    rfl
  case compound c _ _ hi =>
    cases c
    case and =>
      refine ofJson?_of_record .and rfl h ?_
      rintro fields ⟨hds, hn⟩
      rw [Fields.assemble?, hds.documents fun _ => mapM_of_spellItems hi, hn.flag]
      rfl
    case or =>
      refine ofJson?_of_record .or rfl h ?_
      rintro fields ⟨hds, hn⟩
      rw [Fields.assemble?, hds.documents fun _ => mapM_of_spellItems hi, hn.flag]
      rfl
  case truth hi =>
    refine ofJson?_of_record .predicate rfl h ?_
    rintro fields ⟨he, hn⟩
    rw [Fields.assemble?, he.document hi, hn.flag]
    rfl
  case not hi =>
    refine ofJson?_of_record .not rfl h ?_
    intro fields he
    rw [Fields.assemble?, he.document hi]
    rfl

-- What a kind is written as with the first of its fields.
theorem spells_written {slots : List Slot} {k : Kind} {members : List (String × Json)}
    (hn : slots.map (·.name) = k.fields) (hm : Dictionary.keys members <+: k.fields)
    (h : Record.Positions slots (Dictionary.values members)) :
    Record.Spells (kindSlot k :: slots) (written k members) := by
  apply Record.spells_of_positions
  case hn =>
    rw [List.map_cons, hn]
    exact k.fields_nodup
  case hm => exact List.cons_prefix_cons.mpr ⟨rfl, hn ▸ hm⟩
  case h  => exact ⟨rfl, h⟩

theorem keys_optionalField (name : String) (t : Option String) :
    Dictionary.keys (optionalField name t) <+: [name] := by
  cases t <;> simp [optionalField, Dictionary.keys]

theorem positions_optional (name : String) (t : Option String) :
    Record.Positions [.optional name t] (Dictionary.values (optionalField name t)) := by
  cases t <;> simp [optionalField, Dictionary.values, Record.Positions, Slot.optional]

theorem spellItems_toJson (hds : ∀ d ∈ ds, d.Spells d.toJson) : SpellItems ds (itemsToJson ds) := by
  induction ds
  case nil => rfl
  case cons d ds hi =>
    rw [List.forall_mem_cons] at hds
    exact ⟨hds.1, hi hds.2⟩

theorem spellMembers_toJson (hds : ∀ e ∈ ds, e.2.Spells e.2.toJson) :
    SpellMembers ds (membersToJson ds) := by
  induction ds
  case nil => rfl
  case cons e ds hi =>
    rw [List.forall_mem_cons] at hds
    exact ⟨rfl, hds.1, hi hds.2⟩

theorem spells_toJson {d : Document} (hd : d.Canonical) : d.Spells d.toJson := by
  induction hd
  case literal v t hv =>
    have hm := (List.prefix_append_right_inj ["value"]).mpr (keys_optionalField "type" t)
    exact spells_written rfl hm ⟨hv, positions_optional ..⟩
  case collection t _ hi =>
    have hm := (List.prefix_append_right_inj ["items"]).mpr (keys_optionalField "element_type" t)
    exact spells_written rfl hm ⟨spellItems_toJson hi, positions_optional ..⟩
  case path => exact spells_written rfl ⟨_, rfl⟩ ⟨rfl, rfl, nofun⟩
  case negative hi => exact spells_written rfl ⟨_, rfl⟩ ⟨hi, nofun⟩
  case arithmetic t _ _ hil hir =>
    have hm := (List.prefix_append_right_inj ["operator", "left", "right"]).mpr (keys_optionalField "type" t)
    exact spells_written rfl hm ⟨rfl, hil, hir, positions_optional ..⟩
  case positional hi =>
    exact spells_written rfl ⟨_, rfl⟩ ⟨rfl, spellItems_toJson hi, nofun⟩
  case named hi =>
    exact spells_written rfl ⟨_, rfl⟩ ⟨rfl, ⟨_, .refl _, spellMembers_toJson hi⟩, nofun⟩
  case comparison hil hir => exact spells_written rfl ⟨_, rfl⟩ ⟨rfl, hil, hir, rfl, nofun⟩
  case between hie hil hiu => exact spells_written rfl ⟨_, rfl⟩ ⟨hie, hil, hiu, rfl, nofun⟩
  case member hie hi => exact spells_written rfl ⟨_, rfl⟩ ⟨hie, spellItems_toJson hi, rfl, nofun⟩
  case isNull hi => exact spells_written rfl ⟨_, rfl⟩ ⟨hi, rfl, nofun⟩
  case isEmpty hi => exact spells_written rfl ⟨_, rfl⟩ ⟨hi, rfl, nofun⟩
  case compound c _ _ hi =>
    cases c <;> exact spells_written rfl ⟨_, rfl⟩ ⟨spellItems_toJson hi, rfl, nofun⟩
  case truth hi => exact spells_written rfl ⟨_, rfl⟩ ⟨hi, rfl, nofun⟩
  case not hi => exact spells_written rfl ⟨_, rfl⟩ ⟨hi, nofun⟩

-- What is read of any JSON is read again of what it is written as.
theorem ofJson?_toJson (h : ofJson? json = some d) : ofJson? d.toJson = some d :=
  have hd := canonical_of_ofJson? h
  ofJson?_of_spells hd _ (spells_toJson hd)

end Document

end Trivalent
