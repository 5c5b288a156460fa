import Trivalent.Configuration.Reading
import Trivalent.Proofs.Dictionary
import Trivalent.Proofs.Outcome

/-!
# Sorted configurations

However a configuration is written, what is read of it has each name once and all names in order.
-/

namespace Trivalent

namespace Configuration

open Json (Fault Draft)

-- Names are declared once each, in increasing order.
structure Sorted (c : Configuration) : Prop where
  entities     : Dictionary.Sorted c.entities
  attributes   : ∀ e ∈ c.entities, Dictionary.Sorted e.2
  enumerations : Dictionary.Sorted c.enumerations

theorem takeDictionary_sorted (h : takeDictionary f d = .ok dictionary) :
    Dictionary.Sorted dictionary ∧ ∀ e ∈ dictionary, ∃ d, f d = .ok e.2 := by
  unfold takeDictionary at h
  split at h
  case h_1 members ending =>
    have ⟨entries, he, h⟩ := bind_eq_ok.mp h
    have ⟨_, _, h⟩ := bind_eq_ok.mp h
    cases h
    refine ⟨Dictionary.sorted_ofList entries, fun e hm => ?_⟩
    have ⟨⟨name, d⟩, h⟩ := of_mapM_eq_ok he (Dictionary.mem_ofList hm)
    have ⟨name, _, h⟩ := bind_eq_ok.mp h
    have ⟨v, hv, h⟩ := bind_eq_ok.mp h
    cases h
    exact ⟨d, hv⟩
  case h_2 => contradiction
  case h_3 => contradiction

section Records

variable {P : α → Prop} {fields : List (Field α)}

-- What all of the fields of a record preserve.
def Preserved (fields : List (Field α)) (P : α → Prop) : Prop :=
  ∀ field ∈ fields, ∀ a d b, P a → field.set a d = .ok b → P b

theorem Preserved.takeMembers (hp : Preserved fields P) (ha : P a)
    (h : takeMembers fields seen a members = .ok (b, seen')) : P b := by
  induction members generalizing seen a
  case nil =>
    cases h
    exact ha
  case cons member members hi =>
    have ⟨_, _, h⟩ := bind_eq_ok.mp h
    split at h
    case h_1 field hf =>
      split at h
      case isTrue => contradiction
      case isFalse =>
        have ⟨b', hb', h⟩ := bind_eq_ok.mp h
        exact hi (hp field (List.mem_of_find?_eq_some hf) _ _ _ ha hb') h
    case h_2 =>
      have ⟨_, _, h⟩ := bind_eq_ok.mp h
      exact hi ha h

theorem Preserved.takeItems (hp : Preserved fields P) (ha : P a)
    (h : takeItems a ending fields items = .ok (b, seen)) : P b := by
  induction items generalizing fields a seen
  case nil =>
    rw [Configuration.takeItems] at h
    have ⟨_, _, h⟩ := bind_eq_ok.mp h
    cases h
    exact ha
  case cons item items hi =>
    cases fields
    case nil => contradiction
    case cons field fields =>
      have ⟨a', ha', h⟩ := bind_eq_ok.mp h
      have ⟨⟨b', seen'⟩, hb, h⟩ := bind_eq_ok.mp h
      cases h
      rw [Preserved, List.forall_mem_cons] at hp
      exact hi hp.2 (hp.1 _ _ _ ha ha') hb

theorem Preserved.takeRecord (hp : Preserved fields P) (ha : P a)
    (h : takeRecord fields a d = .ok (b, seen)) : P b := by
  unfold Configuration.takeRecord at h
  split at h
  case h_1 =>
    have ⟨⟨b', seen'⟩, hb, h⟩ := bind_eq_ok.mp h
    have ⟨_, _, h⟩ := bind_eq_ok.mp h
    cases h
    exact hp.takeMembers ha hb
  case h_2 => exact hp.takeItems ha h
  case h_3 => contradiction
  case h_4 => contradiction

end Records

theorem fields_preserve_sorted (depth : Nat) : Preserved (fields depth) Sorted := by
  simp only [Preserved, fields, List.forall_mem_cons]
  refine ⟨fun c d c' hc h => ?_, fun c d c' hc h => ?_, fun c d c' hc h => ?_, nofun⟩ <;>
    have ⟨dictionary, hd, h⟩ := bind_eq_ok.mp h <;> cases h
  · have ⟨hs, hm⟩ := takeDictionary_sorted hd
    refine ⟨hs, fun e he => ?_, hc.enumerations⟩
    have ⟨d, hd⟩ := hm e he
    exact (takeDictionary_sorted hd).1
  · exact ⟨hc.entities, hc.attributes, (takeDictionary_sorted hd).1⟩
  · exact ⟨hc.entities, hc.attributes, hc.enumerations⟩

theorem empty_sorted : empty.Sorted :=
  ⟨List.Pairwise.nil, nofun, List.Pairwise.nil⟩

theorem take_sorted (h : take depth d = .ok c) : c.Sorted := by
  have ⟨⟨c', seen⟩, hr, h⟩ := bind_eq_ok.mp h
  cases h
  exact (fields_preserve_sorted depth).takeRecord empty_sorted hr

-- Whatever text a configuration is read from, it is sorted.
theorem ofText_sorted (h : ofText text = .ok c) : c.Sorted := by
  have ⟨c', hc, h⟩ := bind_eq_ok.mp h
  have ⟨_, _, h⟩ := bind_eq_ok.mp h
  cases h
  exact take_sorted hc

end Configuration

end Trivalent
