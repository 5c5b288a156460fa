import Trivalent.Proofs.Arguments
import Trivalent.Proofs.Expression.Binding
import Trivalent.Proofs.Typing.Operations

/-!
# Calls of builtin functions

The values that arguments are given under their parameters, and what the builtin functions do with them.
Results conform to the types of the functions. Arguments of the types of their parameters never make a
builtin function fail.
-/

namespace Trivalent

namespace Standard

variable {f : Function} {p q : Parameter}

theorem mem_functions : f ∈ functions ↔ f = length ∨ f = locate ∨ f = random := by
  simp [functions]

theorem numbered (hf : f ∈ functions) : f.Numbered := by
  rcases mem_functions.mp hf with rfl | rfl | rfl <;> exact Function.numbered_declare ..

theorem eq_of_position (hf : f ∈ functions) (hp : p ∈ f.parameters) (hq : q ∈ f.parameters)
    (h : p.position = q.position) : p = q := by
  have hp := (Function.getElem?_eq_some (numbered hf)).mpr ⟨hp, h⟩
  have hq := (Function.getElem?_eq_some (numbered hf)).mpr ⟨hq, rfl⟩
  exact Option.some.inj (hp.symm.trans hq)

theorem parameter_basic (hf : f ∈ functions) (hp : p ∈ f.parameters) :
    p.type ∈ basics ∧ p.adapter = none := by
  rcases mem_functions.mp hf with rfl | rfl | rfl <;>
    simp [length, locate, random, Function.declare, Function.numbered, parameter] at hp
  case inl => simp [hp, string_mem]
  case inr.inl => rcases hp with rfl | rfl | rfl <;> simp [string_mem, integer_mem]

theorem exists_invoker (hf : f ∈ functions) : ∃ i, f.invoker = some i := by
  rcases mem_functions.mp hf with rfl | rfl | rfl <;> exact ⟨_, rfl⟩

theorem adapter_eq_none (hf : f ∈ functions) : f.adapter = none := by
  rcases mem_functions.mp hf with rfl | rfl | rfl <;> rfl

end Standard

namespace Parameter

-- Strings stand for the constants of enumerations.
def accepts (p : Parameter) (t : DataType) : Bool :=
  p.type.name = t.name || (p.type.name = "STRING" && t.kind = .enumeration)

-- Null or a value of the basic type of the parameter.
def Takes (p : Parameter) (v : Value) : Prop :=
  v = .null ∨ v.basicName? = some p.type.name

end Parameter

-- Every value is one that the parameter at its position takes.
def Arguments.Fit (a : Arguments) (f : Function) : Prop :=
  ∀ p ∈ f.parameters, ∀ v, a.get? p.position = some v → p.Takes v

namespace Parameter

variable {registry : Registry} {p : Parameter} {t : DataType} {v : Value}

theorem takes (hr : registry.Configured) (hp : p.type ∈ Standard.basics) (ht : registry.Has t)
    (ha : p.accepts t) (hv : Conforms t v) : p.Takes v := by
  by_cases hn : v = .null
  case pos => exact .inl hn
  case neg =>
    refine .inr ?_
    simp only [accepts, Bool.or_eq_true, Bool.and_eq_true, decide_eq_true_eq] at ha
    cases ha
    case inl ha => exact hv.basicName_of_name hn ht hr hp ha.symm
    case inr ha =>
      have ⟨constants, hs⟩ := DataType.enumeration_of_kind ha.2
      have ⟨s, _, hv⟩ := hv.constant hn hs
      rw [hv, ha.1]
      rfl

end Parameter

namespace Arguments

variable {f : Function} {a : Arguments} {p : Parameter} {v : Value}

theorem fit_empty (f : Function) : empty.Fit f :=
  nofun

-- The parameters of a function have different positions.
theorem Fit.insert (h : a.Fit f) (hf : f ∈ Standard.functions) (hp : p ∈ f.parameters)
    (hv : p.Takes v) : (a.insert p v).Fit f := by
  intro q hq w hw
  rw [get?_insert] at hw
  split at hw
  case isFalse     => exact h q hq w hw
  case isTrue hpos =>
    cases hw
    exact Standard.eq_of_position hf hp hq hpos ▸ hv

end Arguments

namespace Parameter

variable {p : Parameter} {v : Value}

theorem Takes.string (h : p.Takes v) (hp : p.type = Standard.string) :
    v = .null ∨ ∃ s, v = .string s := by
  refine h.imp_right fun h => ?_
  rw [hp] at h
  cases v <;> simp_all [Value.basicName?, Standard.string, DataType.basic]

theorem Takes.integer (h : p.Takes v) (hp : p.type = Standard.integer) :
    v = .null ∨ ∃ i, v = .integer i := by
  refine h.imp_right fun h => ?_
  rw [hp] at h
  cases v <;> simp_all [Value.basicName?, Standard.integer, DataType.basic]

end Parameter

namespace Invoking

variable {a : Arguments}

theorem length_meets (a : Arguments) :
    Meets (Conforms Standard.integer) (fun _ => ¬a.Fit Standard.length) (length Standard.length a) := by
  simp only [length]
  split
  case h_1 => exact .ok .null
  case h_2 => exact .ok .null
  case h_3 => exact .ok (.basic rfl rfl)
  case h_4 v hn hs hv =>
    refine .error fun h => ?_
    have hp := h ⟨"string", 0, Standard.string, none⟩ (.head _) v hv
    cases hp.string rfl
    all_goals simp_all

theorem locate_meets (a : Arguments) :
    Meets (Conforms Standard.integer) (fun _ => ¬a.Fit Standard.locate) (locate Standard.locate a) := by
  simp only [locate]
  split
  case h_1 => exact .ok .null
  case h_2 => exact .ok .null
  case h_3 =>
    split
    case h_1 => exact .ok .null
    case h_2 => exact .ok .null
    case h_3 =>
      split
      case h_1 => exact .ok (.basic rfl rfl)
      case h_2 => exact .ok .null
      case h_3 => exact .ok (.basic rfl rfl)
      case h_4 v hn hs hv =>
        refine .error fun h => ?_
        have hp := h ⟨"start", 2, Standard.integer, none⟩ (.tail _ (.tail _ (.head _))) v hv
        cases hp.integer rfl
        all_goals simp_all
    case h_4 v hn hs hv =>
      refine .error fun h => ?_
      have hp := h ⟨"string", 1, Standard.string, none⟩ (.tail _ (.head _)) v hv
      cases hp.string rfl
      all_goals simp_all
  case h_4 v hn hs hv =>
    refine .error fun h => ?_
    have hp := h ⟨"substring", 0, Standard.string, none⟩ (.head _) v hv
    cases hp.string rfl
    all_goals simp_all

variable (host : Host) (roots : Roots) {f : Function} {i : Invoker}

-- A builtin function has a value of its type, whatever its arguments are, or fails for arguments that
-- do not fit.
theorem run_ends (hf : f ∈ Standard.functions) (hi : f.invoker = some i) (ht : f.result = some t)
    (bodies : List (Action Value)) (a : Arguments) :
    (run host roots f i bodies a).Ends (Conforms t) fun _ => ¬a.Fit f := by
  rcases Standard.mem_functions.mp hf with rfl | rfl | rfl <;> cases hi <;> cases ht
  case inl     => exact .ofExcept (length_meets a)
  case inr.inl => exact .ofExcept (locate_meets a)
  case inr.inr =>
    have hr : Action.random.Ends (fun _ => True) fun _ => ¬a.Fit Standard.random := fun _ => .ok trivial
    exact hr.map fun _ _ => .basic rfl rfl

end Invoking

end Trivalent
