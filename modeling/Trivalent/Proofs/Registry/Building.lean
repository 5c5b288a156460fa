import Trivalent.Proofs.Registry.Operations

/-!
# Building the registry of a configuration

The registry of a configuration comes of the standard one by operations that are given nothing but types that
came of operations before them. It is therefore closed, whatever its enumerations and entities are called.
-/

namespace Trivalent

namespace Registry

variable {r : Registry} {allowed : String → Prop} {ops : List Operation} {t : DataType}

theorem perform_addType (hn : r.type? t.name = none) : (r.perform (.addType t)).2 = r.register t := by
  rw [perform, addType_eq_ok.mpr ⟨hn, rfl⟩]

-- Types that are registered can be looked up before they are used.
theorem sourced_getTypes (h : r.Sourced ops) {ts : List DataType} (hts : ∀ t ∈ ts, (r.run ops).Has t) :
    ∃ ops', (∀ op ∈ ops', ∃ name, op = .getType name) ∧ r.run (ops ++ ops') = r.run ops ∧
      r.Sourced (ops ++ ops') ∧ ∀ t ∈ ts, .type t ∈ r.answers (ops ++ ops') := by
  induction ts
  case nil => exact ⟨[], nofun, by simp, by simpa, nofun⟩
  case cons t ts hi =>
    rw [List.forall_mem_cons] at hts
    have ⟨ops', hops, hr, hs, ha⟩ := hi hts.2
    have hp : (r.run (ops ++ ops')).perform (.getType t.name) = (.type t, r.run (ops ++ ops')) := by
      rw [hr, perform, requireType, hts.1]
    refine ⟨ops' ++ [.getType t.name], ?_, ?_, ?_, ?_⟩ <;> try rw [← List.append_assoc]
    case refine_1 => simpa [or_imp, forall_and] using hops
    case refine_2 => rw [run_concat, hp, hr]
    case refine_3 => exact sourced_concat.mpr ⟨hs, List.forall_mem_nil _⟩
    case refine_4 =>
      rw [answers_concat, hp, List.forall_mem_cons]
      exact ⟨by simp, fun t ht => List.mem_append_left _ (ha t ht)⟩

theorem run_functions (h : ∀ f, .addFunction f ∉ ops) : (r.run ops).functions = r.functions := by
  induction ops generalizing r
  case nil => rfl
  case cons op ops hi =>
    have hop : (r.perform op).2.functions = r.functions := by
      rw [perform_registry]
      cases op
      case addFunction f => exact absurd (.head _) (h f)
      all_goals rfl
    exact (hi fun f hm => h f (.tail _ hm)).trans hop

-- The registry comes of the standard one. Types are added under names that are allowed, and functions are not
-- added at all.
def Built (allowed : String → Prop) (r : Registry) : Prop :=
  ∃ ops, Registry.standard.run ops = r ∧ Registry.standard.Sourced ops ∧
    (∀ t, .addType t ∈ ops → allowed t.name) ∧ ∀ f, .addFunction f ∉ ops

namespace Built

theorem tidy (h : r.Built allowed) : r.Tidy := by
  have ⟨ops, hr, _⟩ := h
  exact hr ▸ standard_tidy.run ops

theorem closed (h : r.Built allowed) : r.Closed := by
  have ⟨ops, hr, hs, _⟩ := h
  exact hr ▸ (run_closed standard_tidy standard_closed hs).1

theorem basic (h : r.Built allowed) (ht : t ∈ Standard.basics) : r.Has t := by
  have ⟨ops, hr, _⟩ := h
  exact hr ▸ (run_retains _ ops).types.has (standard_has ht)

theorem functions (h : r.Built allowed) : r.functions = Registry.standard.functions := by
  have ⟨ops, hr, _, _, hf⟩ := h
  exact hr ▸ run_functions hf

theorem perform {op : Operation} (h : r.Built allowed) (hg : ∀ t ∈ op.given, r.Has t)
    (ht : ∀ t, op = .addType t → allowed t.name) (hf : ∀ f, op ≠ .addFunction f) :
    (r.perform op).2.Built allowed := by
  have ⟨ops, hr, hs, ha, hn⟩ := h
  have ⟨ops', hops, hr', hs', hm⟩ := sourced_getTypes hs (hr ▸ hg)
  have not_get {o : Operation} (hne : ∀ name, o ≠ .getType name) (hm : o ∈ ops ++ ops' ++ [op]) :
      o ∈ ops ∨ op = o := by
    simp only [List.mem_append, List.mem_singleton] at hm
    rcases hm with (hm | hm) | hm
    · exact .inl hm
    · have ⟨name, hget⟩ := hops o hm
      exact absurd hget (hne name)
    · exact .inr hm.symm
  refine ⟨ops ++ ops' ++ [op], ?_, ?_, fun t hm => ?_, fun f hm => ?_⟩
  case refine_1 => rw [run_concat, hr', hr]
  case refine_2 => exact sourced_concat.mpr ⟨hs', fun t ht => ⟨_, hm t ht, t, .head _, .self⟩⟩
  case refine_3 => exact (not_get (by simp) hm).elim (ha t) (ht t)
  case refine_4 => exact (not_get (by simp) hm).elim (hn f) (hf f)

end Built

theorem built_invariant (allowed : String → Prop) : Invariant allowed (Built allowed) Has where
  found h ht          := h.tidy.has ht
  grow                := Extends.has
  enumeration h ha hn :=
    perform_addType (t := .enumeration _ _ (some .enumeration) none) hn ▸ h.perform nofun
      (fun _ he => by cases he; exact ha) nofun
  entity {r name attributes} h ha hn hq := by
    rw [← perform_addType (t := .entity name attributes none none) hn]
    refine h.perform (fun t ht => ?_) (fun _ he => by cases he; exact ha) nofun
    simp only [Operation.given, DataType.parts, DataType.entity, List.map_map, List.mem_map] at ht
    obtain ⟨a, hm, he⟩ := ht
    exact he ▸ (hq a hm).1
  collection {r t} h hq hn := by
    have hc : (r.perform (.collectionOf t)).2 = r.register (.collection t none none) := by
      rcases r.collectionOf_eq t with ⟨t', ht, _⟩ | ⟨_, he⟩
      case inl => cases hn.symm.trans ht
      case inr => exact congrArg Prod.snd he
    exact hc ▸ h.perform (List.forall_mem_singleton.mpr hq) (by simp) (by simp)

/-! ## Declared types -/

-- The registry has an entity or an enumeration under the name.
def HasDeclared (r : Registry) (name : String) : Prop :=
  ∃ t, r.type? name = some t ∧ (t.kind = .entity ∨ t.kind = .enumeration)

variable {r' : Registry}

theorem Extends.hasDeclared {name : String} (h : r.Extends r') (hd : r.HasDeclared name) :
    r'.HasDeclared name :=
  have ⟨t, ht, hk⟩ := hd
  ⟨t, h _ _ ht, hk⟩

-- Declarations only ever add to a registry.
theorem grows : Invariant (fun _ => True) (fun _ => True) fun _ _ => True where
  found _ _           := trivial
  grow _ _            := trivial
  enumeration _ _ _   := trivial
  entity _ _ _ _      := trivial
  collection _ _ _    := trivial

theorem addEnumeration_declares {name : String} (h : r.addEnumeration name constants = .ok r') :
    r'.HasDeclared name := by
  have ⟨r₁, h₁, h⟩ := bind_eq_ok.mp h
  have ⟨_, hr⟩ := addType_eq_ok.mp h₁
  cases h
  have ⟨⟨hg, _⟩, _⟩ :=
    grows.collectionOf (r := r₁) (t := .enumeration name constants (some .enumeration) none) trivial trivial
  exact hg.hasDeclared ⟨_, hr ▸ has_register, .inr rfl⟩

theorem addEnumerations_declare {enumerations : Dictionary (List String)}
    (h : enumerations.foldlM (fun r e => r.addEnumeration e.1 e.2) r = .ok r') :
    ∀ e ∈ enumerations, r'.HasDeclared e.1 := by
  induction enumerations generalizing r
  case nil => nofun
  case cons first enumerations hi =>
    rw [List.foldlM_cons] at h
    have ⟨r₁, h₁, h⟩ := bind_eq_ok.mp h
    have ⟨hg, _⟩ := grows.addEnumerations trivial (fun _ _ => trivial) h
    rw [List.forall_mem_cons]
    exact ⟨hg.hasDeclared (addEnumeration_declares h₁), hi h⟩

theorem addEntity_declares {name : String} (h : r.addEntity name attributes = .ok r') :
    r'.HasDeclared name := by
  have ⟨_, _, h⟩ := bind_eq_ok.mp h
  have ⟨_, hr⟩ := addType_eq_ok.mp h
  exact ⟨_, hr ▸ has_register, .inl rfl⟩

-- An entity is declared in a round or left by it.
theorem round_declares {entities : Dictionary (Dictionary String)}
    (h : r.round entities = .ok (r', blocked)) :
    ∀ e ∈ entities, e ∈ blocked.map (·.1) ∨ r'.HasDeclared e.1 := by
  induction entities generalizing r blocked
  case nil => nofun
  case cons first entities hi =>
    have ⟨name, attributes⟩ := first
    rw [List.forall_mem_cons]
    rw [Registry.round] at h
    split at h
    case h_1 r₁ _ =>
      obtain ⟨r₂, h₂, h⟩ := bind_eq_ok.mp h
      obtain ⟨⟨hg, _⟩, _⟩ := grows.round trivial (fun _ _ => trivial) h
      exact ⟨.inr (hg.hasDeclared (addEntity_declares h₂)), hi h⟩
    case h_2 r₁ _ _ =>
      obtain ⟨⟨r₂, rest⟩, h₂, h⟩ := bind_eq_ok.mp h
      cases h
      exact ⟨.inl (.head _), fun e he => (hi h₂ e he).imp_left (.tail _)⟩

-- What a round leaves is declared in the rounds after it.
theorem addEntities_declare {r r' : Registry} {entities : Dictionary (Dictionary String)}
    (h : r.addEntities entities = .ok r') : ∀ e ∈ entities, r'.HasDeclared e.1 := by
  rw [Registry.addEntities] at h
  split at h
  case isTrue he => simp [List.isEmpty_iff.mp he]
  case isFalse =>
    obtain ⟨⟨r₁, blocked⟩, h₁, h⟩ := bind_eq_ok.mp h
    have hround := round_declares h₁
    dsimp only at h
    split at h
    case isTrue hl =>
      have hl : (blocked.map (·.1)).length < entities.length := by simpa
      obtain ⟨hg, _⟩ := grows.addEntities trivial (fun _ _ => trivial) h
      exact fun e he => (hround e he).elim (addEntities_declare h e) hg.hasDeclared
    case isFalse =>
      split at h
      case h_1 =>
        cases h
        exact fun e he => (hround e he).resolve_left List.not_mem_nil
      case h_2 => contradiction
termination_by entities.length

end Registry

namespace Configuration

-- The names of the enumerations and of the entities.
def Declares (c : Configuration) (name : String) : Prop :=
  name ∈ Dictionary.keys c.enumerations ∨ name ∈ Dictionary.keys c.entities

instance (c : Configuration) (name : String) : Decidable (c.Declares name) :=
  inferInstanceAs (Decidable (_ ∨ _))

theorem registry_built {c : Configuration} (h : c.registry = .ok r) : r.Built c.Declares := by
  have hs : Registry.standard.Built c.Declares := ⟨[], rfl, Registry.sourced_nil _, nofun, nofun⟩
  apply (Registry.built_invariant c.Declares).registry hs _ _ h
  · exact fun e he => .inl (Dictionary.mem_keys_of_mem he)
  · exact fun e he => .inr (Dictionary.mem_keys_of_mem he)

theorem registry_hasDeclared {c : Configuration} (h : c.registry = .ok r) (hn : c.Declares name) :
    r.HasDeclared name := by
  have ⟨r', h', h⟩ := bind_eq_ok.mp h
  cases hn
  case inl hn =>
    have ⟨constants, he⟩ := Dictionary.mem_keys.mp hn
    have ⟨hg, _⟩ := Registry.grows.addEntities trivial (fun _ _ => trivial) h
    exact hg.hasDeclared (Registry.addEnumerations_declare h' _ he)
  case inr hn =>
    have ⟨attributes, he⟩ := Dictionary.mem_keys.mp hn
    exact Registry.addEntities_declare h _ he

end Configuration

end Trivalent
