import Trivalent.Proofs.Configuration.Sorted
import Trivalent.Proofs.Document.Spelling

/-!
# Spellings of configurations

However a configuration is spelled, it is read as what it was written for.
-/

namespace Trivalent

namespace Json

variable {json : Json}

theorem depth_le_depthItems (h : json ∈ items) : json.depth ≤ depthItems items := by
  induction items
  case nil => contradiction
  case cons first items hi =>
    rw [depthItems]
    cases h
    case head   => exact Nat.le_max_left ..
    case tail h => exact (hi h).trans (Nat.le_max_right ..)

theorem depth_le_depthMembers (h : (name, json) ∈ members) : json.depth ≤ depthMembers members := by
  induction members
  case nil => contradiction
  case cons first members hi =>
    have ⟨_, _⟩ := first
    rw [depthMembers]
    cases h
    case head   => exact Nat.le_max_left ..
    case tail h => exact (hi h).trans (Nat.le_max_right ..)

namespace Draft

theorem ofItems_eq_map (items : List Json) : ofItems items = items.map ofJson := by
  induction items
  case nil         => rfl
  case cons _ _ hi => simp [ofItems, hi]

theorem ofMembers_eq_map (members : List (String × Json)) :
    ofMembers members = members.map fun m => (string m.1, ofJson m.2) := by
  induction members
  case nil => rfl
  case cons member _ hi =>
    have ⟨_, _⟩ := member
    simp [ofMembers, hi]

theorem ending?_ofJson (json : Json) : (ofJson json).ending? = none := by
  cases json <;> rfl

end Draft

end Json

namespace Configuration

open Json (Draft Fault)

section Records

variable {α : Type} {fields : List (Field α)} {slots : List Slot} {part : List String → α} {depth : Nat}

-- `part seen` is a record that has the fields `seen` so far. The field gets its value from all JSON that
-- spells the slot and is nested less than the given depth.
def Puts (part : List String → α) (depth : Nat) (field : Field α) (s : Slot) : Prop :=
  field.name = s.name ∧ ∀ seen json, s.spelled json → json.depth < depth →
    field.set (part seen) (.ofJson json) = .ok (part (s.name :: seen))

-- All fields are seen but those with default values.
def Complete (slots : List Slot) (seen : List String) : Prop :=
  ∀ s ∈ slots, s.name ∈ seen ∨ s.isDefault

theorem takeItems_ofItems (hp : List.Forall₂ (Puts part depth) fields slots)
    (h : Record.Positions slots items) (hd : ∀ json ∈ items, json.depth < depth) (seen : List String) :
    ∃ names, takeItems (part seen) none fields (Draft.ofItems items) =
      .ok (part (names.reverse ++ seen), names) ∧ Complete slots names := by
  induction hp generalizing items seen
  case nil =>
    cases items
    case nil  => exact ⟨[], rfl, nofun⟩
    case cons => contradiction
  case cons field s fields slots hs _ hi =>
    cases items
    case nil => exact ⟨[], rfl, fun s hs => .inr (h s hs)⟩
    case cons item items =>
      rw [List.forall_mem_cons] at hd
      have hset := hs.2 seen item h.1 hd.1
      have ⟨names, ht, hc⟩ := hi h.2 hd.2 (s.name :: seen)
      refine ⟨s.name :: names, ?_, ?_⟩
      case refine_1 =>
        simp [Draft.ofItems, takeItems, hset, ht, hs.1, bind, Except.bind, pure, Except.pure]
      case refine_2 =>
        refine List.forall_mem_cons.mpr ⟨.inl (by simp), fun s hs => ?_⟩
        exact (hc s hs).imp_left (List.mem_cons_of_mem _)

theorem exists_slot (hp : List.Forall₂ (Puts part depth) fields slots) (hf : field ∈ fields) :
    ∃ s ∈ slots, Puts part depth field s := by
  induction hp
  case nil => contradiction
  case cons first s _ _ hs _ hi =>
    cases hf
    case head    => exact ⟨s, by simp, hs⟩
    case tail hf =>
      have ⟨s, hm, hs⟩ := hi hf
      exact ⟨s, List.mem_cons_of_mem _ hm, hs⟩

theorem map_name_eq (hp : List.Forall₂ (Puts part depth) fields slots) :
    fields.map (·.name) = slots.map (·.name) := by
  rw [← List.forall₂_eq_eq_eq, List.forall₂_map_left_iff, List.forall₂_map_right_iff]
  exact hp.imp fun _ _ h => h.1

theorem takeMembers_cons (fields : List (Field α)) (name : String) :
    takeMembers fields seen a (Draft.ofMembers ((name, json) :: members)) =
      match fields.find? (·.name = name) with
      | some field =>
        if name ∈ seen then .error .misshapen
        else field.set a (.ofJson json) >>= (takeMembers fields (name :: seen) · (Draft.ofMembers members))
      | none       => takeMembers fields seen a (Draft.ofMembers members) := by
  change (match fields.find? (·.name = name) with | some _ => _ | none => _) = _
  rw [Draft.ending?_ofJson]
  rfl

-- What the members still say of a slot: nothing if it has been seen, and else what an object says of it.
def Pending (seen : List String) (members : List (String × Json)) (s : Slot) : Prop :=
  (s.name ∈ seen → s.name ∉ Dictionary.keys members) ∧ (s.name ∉ seen → s.In members)

namespace Pending

variable {s : Slot} {name : String} {json : Json} {members : List (String × Json)}

theorem skip (h : Pending seen ((name, json) :: members) s) (hn : name ≠ s.name) :
    Pending seen members s :=
  ⟨fun hm hk => h.1 hm (List.mem_cons_of_mem _ hk), fun hm => (Slot.in_cons_of_ne hn).mp (h.2 hm)⟩

theorem given (h : Pending seen ((name, json) :: members) s) (hn : name = s.name) :
    name ∉ seen ∧ s.spelled json ∧ name ∉ Dictionary.keys members := by
  subst hn
  have hs : s.name ∉ seen := fun hm => h.1 hm (List.mem_cons_self ..)
  exact ⟨hs, (Slot.in_cons_self rfl).mp (h.2 hs)⟩

theorem see (h : Pending seen ((name, json) :: members) s) (hk : name ∉ Dictionary.keys members) :
    Pending (name :: seen) members s := by
  by_cases hn : name = s.name
  case pos => exact ⟨fun _ => hn ▸ hk, fun hm => absurd (hn ▸ List.mem_cons_self ..) hm⟩
  case neg =>
    have h := h.skip hn
    exact ⟨fun hm => h.1 ((List.mem_cons.mp hm).resolve_left (Ne.symm hn)),
      fun hm => h.2 fun hm' => hm (List.mem_cons_of_mem _ hm')⟩

end Pending

-- The induction is on the members: the record that has been read so far has the fields that were seen.
theorem takeMembers_ofMembers (seen : List String) (hp : List.Forall₂ (Puts part depth) fields slots)
    (h : ∀ s ∈ slots, Pending seen members s) (hd : ∀ m ∈ members, m.2.depth < depth) :
    ∃ seen', takeMembers fields seen (part seen) (Draft.ofMembers members) = .ok (part seen', seen') ∧
      Complete slots seen' := by
  induction members generalizing seen
  case nil =>
    refine ⟨seen, rfl, fun s hs => ?_⟩
    by_cases hm : s.name ∈ seen
    case pos => exact .inl hm
    case neg => exact .inr ((h s hs).2 hm)
  case cons member members hi =>
    obtain ⟨name, json⟩ := member
    rw [List.forall_mem_cons] at hd
    rw [takeMembers_cons]
    cases hf : fields.find? (·.name = name)
    case none =>
      have hne : ∀ s ∈ slots, name ≠ s.name := by
        rintro s hs rfl
        have hm : s.name ∈ fields.map (·.name) := map_name_eq hp ▸ List.mem_map_of_mem hs
        obtain ⟨field, hm, hn⟩ := List.mem_map.mp hm
        exact List.find?_eq_none.mp hf field hm (by simpa using hn)
      exact hi seen (fun s hs => (h s hs).skip (hne s hs)) hd.2
    case some field =>
      obtain ⟨s, hs, hput⟩ := exists_slot hp (List.mem_of_find?_eq_some hf)
      have hname : name = s.name := by
        have := List.find?_some hf
        simp_all [hput.1]
      obtain ⟨hseen, hspelled, hkeys⟩ := (h s hs).given hname
      dsimp only
      rw [if_neg hseen, hput.2 seen json hspelled hd.1, ← hname]
      exact hi (name :: seen) (fun s hs => (h s hs).see hkeys) hd.2

-- A record is read from any spelling of it. What was seen of it is complete.
theorem takeRecord_of_spells {json : Json} (hp : List.Forall₂ (Puts part depth) fields slots)
    (ha : ∀ seen, Complete slots seen → part seen = a) (h : Record.Spells slots json)
    (hd : json.depth ≤ depth) :
    ∃ seen, takeRecord fields (part []) (.ofJson json) = .ok (a, seen) ∧ Complete slots seen := by
  cases json
  case object members =>
    have hm : ∀ m ∈ members, m.2.depth < depth := fun m hm =>
      (Nat.lt_succ_of_le (Json.depth_le_depthMembers hm)).trans_le hd
    have ⟨seen, ht, hc⟩ := takeMembers_ofMembers [] hp (fun s hs => ⟨nofun, fun _ => h s hs⟩) hm
    refine ⟨seen, ?_, hc⟩
    rw [Draft.ofJson, takeRecord, ht, ha seen hc]
    rfl
  case array items =>
    have hi : ∀ item ∈ items, item.depth < depth := fun item hm =>
      (Nat.lt_succ_of_le (Json.depth_le_depthItems hm)).trans_le hd
    have ⟨names, ht, hc⟩ := takeItems_ofItems hp h hi []
    refine ⟨names, ?_, hc⟩
    rw [Draft.ofJson, takeRecord, ht, ha]
    intro s hs
    simpa using hc s hs
  all_goals contradiction

end Records

section Dictionaries

variable {f : Draft → Except Fault α} {spells : α → Json → Prop} {json : Json} {depth : Nat}

-- An object with the entries of a dictionary in any order.
def SpellsDictionary (spells : α → Json → Prop) (d : Dictionary α) : Json → Prop :=
  Json.ObjectOf (List.Forall₂ (fun e m => e.1 = m.1 ∧ spells e.2 m.2) d)

theorem takeDictionary_of_spells {d : Dictionary α} (hs : Dictionary.Sorted d)
    (hf : ∀ e ∈ d, ∀ json, spells e.2 json → json.depth < depth → f (.ofJson json) = .ok e.2)
    (h : SpellsDictionary spells d json) (hd : json.depth ≤ depth) :
    takeDictionary f (.ofJson json) = .ok d := by
  cases json <;> try contradiction
  case object members =>
    have ⟨ordered, hp, h⟩ := h
    have ⟨entries, hm, he⟩ := exists_entries (m := Except Fault)
      (f := fun member => return (member.1, ← f (.ofJson member.2))) hs hp h ?hf
    case hf =>
      intro e he member hm ⟨hn, hspells⟩
      have hdepth := Nat.lt_succ_of_le (Json.depth_le_depthMembers hm)
      rw [hf e he member.2 hspells (hdepth.trans_le hd), ← hn]
      rfl
    rw [Draft.ofJson, Draft.ofMembers_eq_map, takeDictionary, List.mapM_map]
    change (members.mapM fun member => return (member.1, ← f (.ofJson member.2))) >>= _ = _
    rw [hm, ← he]
    rfl

theorem takeList_strings (ss : List String) : takeList Draft.takeName (.ofJson (strings ss)) = .ok ss := by
  have hm : (ss.map Json.string).mapM (Draft.takeName ∘ Draft.ofJson) = .ok ss := by
    refine mapM_eq_pure (m := Except Fault) ?_
    rw [List.forall₂_map_right_iff, List.forall₂_same]
    exact fun _ _ => rfl
  rw [strings, Draft.ofJson, Draft.ofItems_eq_map, takeList, List.mapM_map, hm]
  rfl

end Dictionaries

-- The fields of a binding. The value of a root is null by default.
def Binding.slots (b : Binding) : List Slot :=
  [.text "type" b.type, .value "value" b.value (b.value = .null)]

def Binding.Spells (b : Binding) : Json → Prop :=
  Record.Spells b.slots

-- The fields of a configuration, which are empty by default.
def slots (c : Configuration) : List Slot :=
  [⟨"entities", SpellsDictionary (SpellsDictionary fun s json => json = .string s) c.entities,
     c.entities = []⟩,
   ⟨"enums", SpellsDictionary (fun ss json => json = strings ss) c.enumerations, c.enumerations = []⟩,
   ⟨"roots", SpellsDictionary Binding.Spells c.roots, c.roots = []⟩]

def Spells (c : Configuration) : Json → Prop :=
  Record.Spells c.slots

-- A configuration as it is held: all of its dictionaries are sorted, and the values of its roots are in
-- canonical form.
structure Canonical (c : Configuration) : Prop where
  sorted : c.Sorted
  roots  : Dictionary.Sorted c.roots
  values : ∀ e ∈ c.roots, e.2.value.canonical = e.2.value

theorem Binding.canonical_of_take (h : Binding.take depth d = .ok b) :
    b.value.canonical = b.value := by
  have hp : Preserved (Binding.fields depth) fun b => b.value.canonical = b.value := by
    simp only [Preserved, Binding.fields, List.forall_mem_cons]
    refine ⟨fun b d b' hb h => ?type, fun b d b' _ h => ?value, List.forall_mem_nil _⟩
    case type =>
      obtain ⟨s, _, h⟩ := bind_eq_ok.mp h
      cases h
      exact hb
    case value =>
      obtain ⟨v, _, h⟩ := bind_eq_ok.mp h
      cases h
      exact v.canonical_canonical
  obtain ⟨⟨b', seen⟩, hr, h⟩ := bind_eq_ok.mp h
  have hb := hp.takeRecord rfl hr
  dsimp only at h
  split at h
  case isTrue  => cases h; exact hb
  case isFalse => contradiction

-- Whatever a configuration is taken from, it is canonical.
theorem canonical_of_take (h : take depth d = .ok c) : c.Canonical := by
  have hp : Preserved (fields depth) fun c =>
      Dictionary.Sorted c.roots ∧ ∀ e ∈ c.roots, e.2.value.canonical = e.2.value := by
    simp only [Preserved, fields, List.forall_mem_cons]
    refine ⟨fun c d c' hc h => ?entities, fun c d c' hc h => ?enums, fun c d c' hc h => ?roots,
      List.forall_mem_nil _⟩
    case entities =>
      obtain ⟨_, _, h⟩ := bind_eq_ok.mp h
      cases h
      exact hc
    case enums =>
      obtain ⟨_, _, h⟩ := bind_eq_ok.mp h
      cases h
      exact hc
    case roots =>
      obtain ⟨bindings, hd, h⟩ := bind_eq_ok.mp h
      cases h
      obtain ⟨hs, hm⟩ := takeDictionary_sorted hd
      refine ⟨hs, fun e he => ?_⟩
      obtain ⟨d, hd⟩ := hm e he
      exact Binding.canonical_of_take hd
  obtain ⟨⟨c', seen⟩, hr, hc⟩ := bind_eq_ok.mp h
  cases hc
  have hempty : Dictionary.Sorted empty.roots ∧ ∀ e ∈ empty.roots, e.2.value.canonical = e.2.value :=
    ⟨List.Pairwise.nil, List.forall_mem_nil _⟩
  obtain ⟨hs, hv⟩ := hp.takeRecord hempty hr
  exact ⟨take_sorted h, hs, hv⟩

theorem ite_eq_of_or {a b : α} [Decidable p] (h : p ∨ a = b) : (if p then a else b) = a := by
  split
  case isTrue     => rfl
  case isFalse hp => exact (h.resolve_left hp).symm

-- What of a binding is known when some fields have been seen.
def Binding.restrict (b : Binding) (seen : List String) : Binding where
  type  := if "type" ∈ seen then b.type else ""
  value := if "value" ∈ seen then b.value else .null

theorem Binding.restrict_of_complete {b : Binding} (hc : Complete b.slots seen) : b.restrict seen = b := by
  simp only [Complete, slots, List.forall_mem_cons] at hc
  obtain ⟨ht, hv, _⟩ := hc
  have ht : "type" ∈ seen := ht.resolve_right id
  have hv : "value" ∈ seen ∨ b.value = .null := hv
  rw [restrict, if_pos ht, ite_eq_of_or hv]

theorem Binding.puts_fields (b : Binding) (depth : Nat) :
    List.Forall₂ (Puts b.restrict (depth - 2)) (Binding.fields depth) b.slots := by
  refine .cons ⟨rfl, ?type⟩ (.cons ⟨rfl, ?value⟩ .nil)
  case type =>
    rintro seen json rfl _
    simp [Slot.text, Slot.required, restrict, Draft.ofJson, Draft.takeName, bind, Except.bind, pure,
      Except.pure]
  case value =>
    intro seen json hs hd
    have hd : json.depth ≤ depth - valueDepth := by
      rw [valueDepth]
      omega
    have hs : json.canonical = b.value := hs
    simp [Slot.value, restrict, Draft.take_ofJson hd, hs, bind, Except.bind, pure, Except.pure]

theorem Binding.take_of_spells {b : Binding} (h : b.Spells json) (hd : json.depth + 2 ≤ depth) :
    Binding.take depth (.ofJson json) = .ok b := by
  obtain ⟨seen, ht, hc⟩ := takeRecord_of_spells (b.puts_fields depth) (fun _ => restrict_of_complete) h
    (Nat.le_sub_of_add_le hd)
  have htype : "type" ∈ seen := (hc _ (List.mem_cons_self ..)).resolve_right id
  change takeRecord (Binding.fields depth) ⟨"", .null⟩ (.ofJson json) = .ok (b, seen) at ht
  rw [Binding.take, ht]
  exact if_pos htype

-- What of a configuration is known when some fields have been seen.
def restrict (c : Configuration) (seen : List String) : Configuration where
  entities     := if "entities" ∈ seen then c.entities else []
  enumerations := if "enums" ∈ seen then c.enumerations else []
  roots        := if "roots" ∈ seen then c.roots else []

theorem restrict_of_complete {c : Configuration} (hc : Complete c.slots seen) : c.restrict seen = c := by
  simp only [Complete, slots, List.forall_mem_cons] at hc
  obtain ⟨he, hn, hr, _⟩ := hc
  rw [restrict, ite_eq_of_or he, ite_eq_of_or hn, ite_eq_of_or hr]

theorem puts_fields {c : Configuration} (hc : c.Canonical) (depth : Nat) :
    List.Forall₂ (Puts c.restrict depth) (fields depth) c.slots := by
  refine .cons ⟨rfl, ?entities⟩ (.cons ⟨rfl, ?enums⟩ (.cons ⟨rfl, ?roots⟩ .nil))
  case entities =>
    intro seen json hs hd
    have hattributes : ∀ e ∈ c.entities, ∀ json, SpellsDictionary (fun s json => json = .string s) e.2 json →
        json.depth < depth → takeDictionary Draft.takeName (.ofJson json) = .ok e.2 := by
      intro e he json hs hd
      refine takeDictionary_of_spells (hc.sorted.attributes e he) ?_ hs hd.le
      rintro _ _ _ rfl _
      rfl
    have ht := takeDictionary_of_spells hc.sorted.entities hattributes hs hd.le
    simp [restrict, ht, bind, Except.bind, pure, Except.pure]
  case enums =>
    intro seen json hs hd
    have hs : SpellsDictionary (fun ss json => json = strings ss) c.enumerations json := hs
    have hconstants : ∀ e ∈ c.enumerations, ∀ json, json = strings e.2 → json.depth < depth →
        takeList Draft.takeName (.ofJson json) = .ok e.2 := by
      rintro e _ _ rfl _
      exact takeList_strings e.2
    have ht := takeDictionary_of_spells hc.sorted.enumerations hconstants hs hd.le
    simp [restrict, ht, bind, Except.bind, pure, Except.pure]
  case roots =>
    intro seen json hs hd
    have hbinding : ∀ e ∈ c.roots, ∀ json, e.2.Spells json → json.depth < depth - 1 →
        Binding.take depth (.ofJson json) = .ok e.2 :=
      fun e _ json hs hd => Binding.take_of_spells hs (by omega)
    have ht := takeDictionary_of_spells hc.roots hbinding hs (Nat.le_sub_one_of_lt hd)
    simp [restrict, ht, bind, Except.bind, pure, Except.pure]

theorem ofJson?_of_spells {c : Configuration} (hc : c.Canonical) {json : Json} (h : c.Spells json) :
    ofJson? json = some c := by
  obtain ⟨seen, ht, _⟩ := takeRecord_of_spells (puts_fields hc json.depth) (fun _ => restrict_of_complete) h
    le_rfl
  change takeRecord (fields json.depth) empty (.ofJson json) = .ok (c, seen) at ht
  rw [ofJson?, take, ht]
  rfl

theorem spellsDictionary_mapValues {f : α → Json} {d : Dictionary α} (h : ∀ e ∈ d, spells e.2 (f e.2)) :
    SpellsDictionary spells d (.object (d.mapValues f)) := by
  refine ⟨_, .refl _, ?_⟩
  rw [Dictionary.mapValues, List.forall₂_map_right_iff, List.forall₂_same]
  exact fun e he => ⟨rfl, h e he⟩

theorem Binding.spells_toJson {b : Binding} (hb : b.value.canonical = b.value) : b.Spells b.toJson := by
  apply Record.spells_of_positions
  case hn => change ["type", "value"].Nodup; decide
  case hm => exact ⟨[], rfl⟩
  case h  => exact ⟨rfl, hb, nofun⟩

theorem spells_toJson {c : Configuration} (hc : c.Canonical) : c.Spells c.toJson := by
  apply Record.spells_of_positions
  case hn => change ["entities", "enums", "roots"].Nodup; decide
  case hm => exact ⟨[], rfl⟩
  case h  =>
    refine ⟨?entities, ?enums, ?roots, nofun⟩
    case entities =>
      exact spellsDictionary_mapValues fun e _ => spellsDictionary_mapValues fun _ _ => rfl
    case enums =>
      change SpellsDictionary (fun ss json => json = strings ss) _ (.object (c.enumerations.mapValues strings))
      exact spellsDictionary_mapValues fun _ _ => rfl
    case roots =>
      exact spellsDictionary_mapValues fun e he => Binding.spells_toJson (hc.values e he)

-- What is read of any JSON is read again of what it is written as.
theorem ofJson?_toJson (h : ofJson? json = some c) : ofJson? c.toJson = some c := by
  have hc : c.Canonical := by
    rw [ofJson?] at h
    cases ht : take json.depth (.ofJson json) <;> rw [ht] at h <;> cases h
    exact canonical_of_take ht
  exact ofJson?_of_spells hc (spells_toJson hc)

end Configuration

-- Documents and configurations are read from what they are written as, which is one of their spellings, and
-- from all other spellings.
theorem decode_spelling :
    (∀ d : Document, d.Canonical → d.Spells d.toJson ∧ Document.ofJson? d.toJson = some d ∧
      ∀ json, d.Spells json → Document.ofJson? json = some d) ∧
    ∀ c : Configuration, c.Canonical → c.Spells c.toJson ∧ Configuration.ofJson? c.toJson = some c ∧
      ∀ json, c.Spells json → Configuration.ofJson? json = some c := by
  constructor
  case left =>
    intro d hd
    have hs := Document.spells_toJson hd
    exact ⟨hs, Document.ofJson?_of_spells hd _ hs, Document.ofJson?_of_spells hd⟩
  case right =>
    intro c hc
    have hs := Configuration.spells_toJson hc
    exact ⟨hs, Configuration.ofJson?_of_spells hc hs, fun json => Configuration.ofJson?_of_spells hc⟩

-- A document and a configuration of which some records are objects and some arrays.
namespace Mixed

def document : Document :=
  .not (.comparison "=" (.path "p" ["age"]) (.literal (.number (.integer 30)) none) false)

def documentJson : Json :=
  .object
    [("note", .bool true),
     ("expression", .array
       [.string "comparison", .string "=",
        .object [("attributes", .array [.string "age"]), ("kind", .string "path"), ("alias", .string "p")],
        .object [("type", .null), ("value", .number (.integer 30)), ("kind", .string "literal")]]),
     ("kind", .string "not")]

def configuration : Configuration where
  entities     := [("Person", [("age", "INTEGER")])]
  enumerations := []
  roots        := [("p", ⟨"Person", .null⟩)]

def configurationJson : Json :=
  .object
    [("roots", .object [("p", .array [.string "Person"])]),
     ("entities", .object [("Person", .object [("age", .string "INTEGER")])])]

end Mixed

theorem decode_spelling_mixed :
    (Mixed.document.Canonical ∧ Mixed.document.Spells Mixed.documentJson ∧
      Document.ofJson? Mixed.documentJson = some Mixed.document) ∧
    Mixed.configuration.Canonical ∧ Mixed.configuration.Spells Mixed.configurationJson ∧
      Configuration.ofJson? Mixed.configurationJson = some Mixed.configuration := by
  constructor
  case left =>
    have hd : Mixed.document.Canonical := .not (.comparison .path (.literal rfl))
    have hs : Mixed.document.Spells Mixed.documentJson := by
      simp [Mixed.document, Mixed.documentJson, Document.Spells, Record.Spells, Record.Positions, Slot.In,
        Document.kindSlot, Document.kindField, Document.Kind.name, Slot.required, Slot.text, Slot.value,
        Slot.optional, Slot.strings, Slot.flag, Json.canonical, Dictionary.keys]
    exact ⟨hd, hs, (decode_spelling.1 _ hd).2.2 _ hs⟩
  case right =>
    have hc : Mixed.configuration.Canonical := by
      refine ⟨⟨?_, ?_, ?_⟩, ?_, ?_⟩ <;> simp [Mixed.configuration, Dictionary.Sorted, Json.canonical]
    have he : Configuration.SpellsDictionary (Configuration.SpellsDictionary fun s json => json = .string s)
        [("Person", [("age", "INTEGER")])] (.object [("Person", .object [("age", .string "INTEGER")])]) :=
      ⟨_, .refl _, .cons ⟨rfl, _, .refl _, .cons ⟨rfl, rfl⟩ .nil⟩ .nil⟩
    have hr : Configuration.SpellsDictionary Configuration.Binding.Spells [("p", ⟨"Person", .null⟩)]
        (.object [("p", .array [.string "Person"])]) :=
      ⟨_, .refl _, .cons ⟨rfl, rfl, by simp [Record.Positions, Slot.value]⟩ .nil⟩
    have hs : Mixed.configuration.Spells Mixed.configurationJson := by
      simp [Mixed.configuration, Mixed.configurationJson, Configuration.Spells, Configuration.slots,
        Record.Spells, Slot.In, Dictionary.keys, he, hr]
    exact ⟨hc, hs, (decode_spelling.2 _ hc).2.2 _ hs⟩

end Trivalent
