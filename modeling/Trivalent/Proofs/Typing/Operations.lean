import Trivalent.Document.Resolution
import Trivalent.Proofs.Typing.Conformance

/-!
# Operations on conforming values

Which types the operands of comparisons and of arithmetic may have, and what the builtin ways to compare
and to calculate do with operands that conform to their types. Results conform to the type that is found
for them. Operands of admitted types never fail but by division by zero or by overflow.
-/

namespace Trivalent

-- Division by zero and results that do not fit. All other errors are errors of types.
def EvalError.IsArithmetic : EvalError → Prop
  | divisionByZero      => True
  | integerOverflow ..  => True
  | intervalOverflow .. => True
  | _                   => False

def DataType.isNumber (t : DataType) : Bool :=
  t.name = "INTEGER" || t.name = "NUMERIC"

def Value.isNumber : Value → Bool
  | integer _ => true
  | numeric _ => true
  | _         => false

-- Numbers are compared with numbers and values of any other type with values of this type. Booleans
-- have no order.
def Comparison.admits (c : Comparison) (l r : DataType) : Bool :=
  (l.isNumber && r.isNumber) ||
  (l.name = r.name && (l.name = "STRING" || l.name = "TIME" || l.name = "INTERVAL")) ||
  (l.kind = .enumeration && l.same r) ||
  (l.name = "BOOLEAN" && r.name = "BOOLEAN" && (c = .equal || c = .notEqual))

-- Numbers are calculated with numbers, anything is joined to a string, and intervals are added to and
-- subtracted from intervals and times.
def Arithmetic.admits (o : Arithmetic) (l r : DataType) : Bool :=
  (l.isNumber && r.isNumber) ||
  (o = .plus && (l.name = "STRING" || r.name = "STRING")) ||
  ((o = .plus || o = .minus) && r.name = "INTERVAL" && (l.name = "INTERVAL" || l.name = "TIME")) ||
  (o = .plus && l.name = "INTERVAL" && r.name = "TIME")

-- What has a negative.
def DataType.isSigned (t : DataType) : Bool :=
  t.isNumber || t.name = "INTERVAL"

namespace Calculating

variable {t : DataType} {l r : Value} {o : Operation}

theorem checkedInteger_meets (o : Operation) (l r : Int64) (z : Int) :
    Meets (·.basicName? = some "INTEGER") (fun err => o ≠ .complement → err.IsArithmetic)
      (checkedInteger o l r z) := by
  simp only [checkedInteger]
  split
  · exact .ok rfl
  · exact .error fun _ => trivial

theorem integer_meets (t : DataType) (l r : Int64) (o : Operation) :
    Meets (·.basicName? = some "INTEGER") (fun err => o ≠ .complement → err.IsArithmetic)
      (integer t l r o) := by
  have hc := checkedInteger_meets o l r
  cases o
  case unaryPlus  => exact .ok rfl
  case complement => exact .error (absurd rfl)
  case divide =>
    simp only [integer]
    split
    · exact .error fun _ => trivial
    · exact hc _
  case modulo =>
    simp only [integer]
    split
    case isTrue => exact .error fun _ => trivial
    case isFalse =>
      have hq := hc (l.toInt.tdiv r.toInt)
      cases h : checkedInteger .modulo l r (l.toInt.tdiv r.toInt) <;> rw [h] at hq
      case error => exact .error hq.failure
      case ok    => exact hc _
  all_goals exact hc _

theorem float_meets (t : DataType) (l r : Float) (o : Operation) :
    Meets (·.basicName? = some "NUMERIC") (fun err => o ≠ .complement → err.IsArithmetic)
      (float t l r o) := by
  cases o
  case complement => exact .error (absurd rfl)
  case divide | modulo =>
    simp only [float]
    split
    · exact .error fun _ => trivial
    · exact .ok rfl
  all_goals exact .ok rfl

-- The result is a double if one is asked for or if an operand is no integer.
theorem numeric_meets_numeric
    (h : t.name = "NUMERIC" ∨ l.basicName? = some "NUMERIC" ∨ r.basicName? = some "NUMERIC") :
    Meets (·.basicName? = some "NUMERIC")
      (fun err => l.isNumber → r.isNumber → o ≠ .complement → err.IsArithmetic)
      (numeric t l r o) := by
  have hf (x y : Float) := (float_meets t x y o).widen fun _ h (_ : l.isNumber)
    (_ : r.isNumber) => h
  simp only [numeric]
  split
  case h_1 =>
    have ht : t.name = numericName := by simpa [Value.basicName?, numericName] using h
    rw [if_pos ht]
    exact hf _ _
  case h_5 h₁ h₂ h₃ h₄ => exact .error fun hl hr => by cases l <;> cases r <;> simp_all [Value.isNumber]
  all_goals exact hf _ _

theorem numeric_meets_integer (ht : t.name ≠ "NUMERIC") (hl : l.basicName? = some "INTEGER")
    (hr : r.basicName? ≠ some "NUMERIC") :
    Meets (·.basicName? = some "INTEGER") (fun err => r.isNumber → o ≠ .complement → err.IsArithmetic)
      (numeric t l r o) := by
  simp only [numeric]
  split
  case h_1 =>
    rw [if_neg (by exact ht)]
    exact (integer_meets ..).widen fun _ h _ => h
  case h_5 =>
    exact .error fun h => by cases l <;> cases r <;> simp_all [Value.isNumber, Value.basicName?]
  all_goals simp [Value.basicName?] at hl hr

theorem string_meets : Meets (·.basicName? = some "STRING") (fun _ => o ≠ .plus) (string t l r o) := by
  cases o
  case plus => exact .ok rfl
  all_goals exact .error nofun

theorem checkedInterval_meets (o : Operation) (l r : Value) (a : Option Interval) :
    Meets (·.basicName? = some "INTERVAL") EvalError.IsArithmetic (checkedInterval o l r a) := by
  simp only [checkedInterval]
  split
  · exact .ok rfl
  · exact .error trivial

-- A time can be shifted by an interval.
theorem time_meets_left (hl : l.basicName? = some "TIME") :
    Meets (·.basicName? = some "TIME")
      (fun _ => r.basicName? = some "INTERVAL" → o ≠ .plus ∧ o ≠ .minus) (time t l r o) := by
  cases l <;> simp [Value.basicName?] at hl
  case time =>
    cases r
    case interval =>
      cases o
      case plus | minus => exact .ok rfl
      all_goals exact .error fun _ => ⟨nofun, nofun⟩
    all_goals exact .error fun h => by simp [Value.basicName?] at h

theorem time_meets_right (hl : l.basicName? = some "INTERVAL") (hr : r.basicName? = some "TIME")
    (ho : o ≠ .unaryMinus) :
    Meets (·.basicName? = some "TIME") (fun _ => o ≠ .plus) (time t l r o) := by
  cases l <;> simp [Value.basicName?] at hl
  cases r <;> simp [Value.basicName?] at hr
  cases o
  case plus       => exact .ok rfl
  case unaryMinus => contradiction
  all_goals exact .error nofun

theorem time_meets_interval (hl : l.basicName? = some "INTERVAL") (hr : r.basicName? ≠ some "TIME") :
    Meets (·.basicName? = some "INTERVAL")
      (fun err => r.basicName? = some "INTERVAL" → o = .plus ∨ o = .minus ∨ o = .unaryMinus →
        err.IsArithmetic) (time t l r o) := by
  have hc (a : Option Interval) :
      Meets (·.basicName? = some "INTERVAL")
        (fun err => r.basicName? = some "INTERVAL" → o = .plus ∨ o = .minus ∨ o = .unaryMinus →
          err.IsArithmetic) (checkedInterval o l r a) :=
    (checkedInterval_meets o l r a).widen fun _ h _ _ => h
  cases l <;> simp [Value.basicName?] at hl
  case interval =>
    cases r
    case time => exact absurd rfl hr
    case interval =>
      cases o
      case plus | minus | unaryMinus => exact hc _
      all_goals exact .error fun _ h => by simp at h
    all_goals
      cases o
      case unaryMinus => exact hc _
      all_goals exact .error fun h => by simp [Value.basicName?] at h

end Calculating

namespace Comparing

variable {l r : Value} {c : Comparison} {E : EvalError → Prop}

theorem numeric_meets (hl : l.isNumber) (hr : r.isNumber) :
    Meets (fun _ => True) E (numeric l r c) := by
  cases l <;> simp [Value.isNumber] at hl
  all_goals
    cases r <;> simp [Value.isNumber] at hr
    all_goals exact .ok trivial

theorem string_meets (hl : l.basicName? = some "STRING") (hr : r.basicName? = some "STRING") :
    Meets (fun _ => True) E (string l r c) := by
  cases l <;> simp [Value.basicName?] at hl
  cases r <;> simp [Value.basicName?] at hr
  exact .ok trivial

theorem boolean_meets (t : DataType) (hl : l.basicName? = some "BOOLEAN")
    (hr : r.basicName? = some "BOOLEAN") (hc : c = .equal ∨ c = .notEqual) :
    Meets (fun _ => True) E (boolean t l r c) := by
  cases l <;> simp [Value.basicName?] at hl
  cases r <;> simp [Value.basicName?] at hr
  cases hc
  case inl hc => exact hc ▸ .ok trivial
  case inr hc => exact hc ▸ .ok trivial

theorem time_meets (hn : name = "TIME" ∨ name = "INTERVAL") (hl : l.basicName? = some name)
    (hr : r.basicName? = some name) : Meets (fun _ => True) E (time l r c) := by
  cases hn
  all_goals
    subst name
    cases l <;> simp [Value.basicName?] at hl
    cases r <;> simp [Value.basicName?] at hr
    exact .ok trivial

theorem enumeration_meets {t : DataType} {a b : String} (ha : a ∈ t.constants)
    (hb : b ∈ t.constants) :
    Meets (fun _ => True) E (enumeration t (.string a) (.string b) c) := by
  have ⟨i, hi⟩ := Option.isSome_iff_exists.mp (List.isSome_idxOf?.mpr ha)
  have ⟨j, hj⟩ := Option.isSome_iff_exists.mp (List.isSome_idxOf?.mpr hb)
  simp only [enumeration, hi, hj]
  exact .ok trivial

end Comparing

namespace Registry.Has

variable {r : Registry} {t b : DataType}

theorem eq_basic (h : r.Has t) (hr : r.Configured) (hb : b ∈ Standard.basics)
    (hn : t.name = b.name) : t = b :=
  h.eq (hr.basics hb) hn

-- All types but the basic ones lack a calculator and have other names.
theorem basic_or (h : r.Has t) (hr : r.Configured) :
    t ∈ Standard.basics ∨ t.calculator = none ∧
      t.name ∉ ["INTEGER", "NUMERIC", "STRING", "BOOLEAN", "TIME", "INTERVAL"] := by
  by_cases hb : t ∈ Standard.basics
  case pos => exact .inl hb
  case neg =>
    refine .inr ⟨?calculator, fun hn => ?name⟩
    case name =>
      have ⟨b, hm, hn⟩ : ∃ b ∈ Standard.basics, b.name = t.name := List.mem_map.mp hn
      exact hb (h.eq_basic hr hm hn.symm ▸ hm)
    case calculator =>
      cases h.declares hr
      case basic hb' => exact absurd hb' hb
      all_goals rfl

end Registry.Has

namespace Conforms

variable {r : Registry} {t b : DataType} {v : Value}

theorem basicName_of_mem (h : Conforms t v) (hv : v ≠ .null) (ht : t ∈ Standard.basics) :
    v.basicName? = some t.name :=
  h.basicName hv (Standard.shape_of_mem ht)

theorem basicName_of_name (h : Conforms t v) (hv : v ≠ .null) (ht : r.Has t) (hr : r.Configured)
    (hb : b ∈ Standard.basics) (hn : t.name = b.name) : v.basicName? = some b.name := by
  have := ht.eq_basic hr hb hn
  subst this
  exact h.basicName_of_mem hv hb

-- Only strings conform to types of another name than that of their basic type.
theorem name_eq (h : Conforms t v) (hn : v.basicName? = some name) (hs : name ≠ "STRING") :
    t.name = name := by
  cases h
  case basic h => exact Option.some.inj (h.symm.trans hn)
  all_goals simp_all [Value.basicName?]

theorem isNumber (h : Conforms t v) (hv : v ≠ .null) (ht : r.Has t) (hr : r.Configured)
    (hn : t.isNumber) : v.isNumber := by
  simp only [DataType.isNumber, Bool.or_eq_true, decide_eq_true_eq] at hn
  cases hn
  case inl hn =>
    have := h.basicName_of_name hv ht hr Standard.integer_mem hn
    cases v <;> simp_all [Value.basicName?, Value.isNumber, Standard.integer, DataType.basic]
  case inr hn =>
    have := h.basicName_of_name hv ht hr Standard.numeric_mem hn
    cases v <;> simp_all [Value.basicName?, Value.isNumber, Standard.numeric, DataType.basic]

end Conforms

namespace Resolution

theorem requireType_of_type? {registry : Registry} {name : String} (h : registry.type? name = some t) :
    requireType registry name = .ok t := by
  rw [requireType, Registry.requireType_eq_ok.mpr h]
  rfl

theorem eq_of_requireType {registry : Registry} {b t : DataType} (hr : registry.Configured)
    (hb : b ∈ Standard.basics) (h : requireType registry b.name = .ok t) : t = b := by
  have h := mapError_eq_ok.mp h
  rw [Registry.requireType, hr.basics hb] at h
  exact (Except.ok.inj h).symm

end Resolution

-- The type of arithmetic whose operands have the types `l` and `r`.
inductive ArithmeticType (l r : DataType) : DataType → Prop
  | left    : (l.name = "INTEGER" → r.name ≠ "NUMERIC") → (l.name = "INTERVAL" → r.name ≠ "TIME") →
              (r.name = "STRING" → l.name = "STRING") → ArithmeticType l r l
  | numeric : l.isNumber → r.isNumber → ArithmeticType l r Standard.numeric
  | shifted : (l.name = "TIME" ∧ r.name = "INTERVAL") ∨ (l.name = "INTERVAL" ∧ r.name = "TIME") →
              ArithmeticType l r Standard.time
  | joined  : l.name = "STRING" ∨ r.name = "STRING" → ArithmeticType l r Standard.string

namespace ArithmeticType

variable {registry : Registry} {l r t : DataType}

theorem of_resolution (hr : registry.Configured)
    (h : Resolution.arithmeticType registry l r = .ok t) : ArithmeticType l r t := by
  simp only [Resolution.arithmeticType] at h
  split at h
  case isTrue hn =>
    cases h
    exact .left (by simp +contextual [← hn]) (by simp +contextual [← hn]) fun h => hn.trans h
  case isFalse hn =>
    split at h
    case h_1 hl hr' =>
      have := Resolution.eq_of_requireType hr Standard.numeric_mem h
      exact this ▸ .numeric (by simp [DataType.isNumber, hl]) (by simp [DataType.isNumber, hr'])
    case h_2 hl hr' =>
      have := Resolution.eq_of_requireType hr Standard.numeric_mem h
      exact this ▸ .numeric (by simp [DataType.isNumber, hl]) (by simp [DataType.isNumber, hr'])
    case h_3 hl hr' =>
      have := Resolution.eq_of_requireType hr Standard.time_mem h
      exact this ▸ .shifted (.inl ⟨hl, hr'⟩)
    case h_4 hl hr' =>
      have := Resolution.eq_of_requireType hr Standard.time_mem h
      exact this ▸ .shifted (.inr ⟨hl, hr'⟩)
    case h_5 hl =>
      have := Resolution.eq_of_requireType hr Standard.string_mem h
      exact this ▸ .joined (.inl hl)
    case h_6 hr' _ =>
      have := Resolution.eq_of_requireType hr Standard.string_mem h
      exact this ▸ .joined (.inr hr')
    case h_7 _ hs hn _ _ hi =>
      cases h
      exact .left hn hi fun hr' => absurd hr' hs

-- The type of arithmetic is registered.
theorem has (h : ArithmeticType l r t) (hr : registry.Configured) (hl : registry.Has l) :
    registry.Has t := by
  cases h
  case left    => exact hl
  case numeric => exact hr.basics Standard.numeric_mem
  case shifted => exact hr.basics Standard.time_mem
  case joined  => exact hr.basics Standard.string_mem

end ArithmeticType

theorem DataType.isNumber_iff {t : DataType} :
    t.isNumber ↔ t.name = "INTEGER" ∨ t.name = "NUMERIC" := by
  simp [isNumber]

theorem Comparison.admits_iff {c : Comparison} {l r : DataType} :
    c.admits l r ↔ (l.isNumber ∧ r.isNumber) ∨
      (l.name = r.name ∧ (l.name = "STRING" ∨ l.name = "TIME" ∨ l.name = "INTERVAL")) ∨
      (l.kind = .enumeration ∧ l.same r) ∨
      (l.name = "BOOLEAN" ∧ r.name = "BOOLEAN" ∧ (c = .equal ∨ c = .notEqual)) := by
  simp [admits, and_assoc, or_assoc]

namespace Arithmetic

variable {o : Arithmetic} {l r : DataType}

theorem operation_ne_complement (o : Arithmetic) : o.operation ≠ .complement := by
  cases o <;> nofun

theorem operation_ne_unaryMinus (o : Arithmetic) : o.operation ≠ .unaryMinus := by
  cases o <;> nofun

theorem operation_eq_plus : o.operation = .plus ↔ o = .plus := by
  cases o <;> simp [operation]

theorem operation_eq_minus : o.operation = .minus ↔ o = .minus := by
  cases o <;> simp [operation]

theorem admits_iff :
    o.admits l r ↔ (l.isNumber ∧ r.isNumber) ∨
      (o = .plus ∧ (l.name = "STRING" ∨ r.name = "STRING")) ∨
      ((o = .plus ∨ o = .minus) ∧ r.name = "INTERVAL" ∧ (l.name = "INTERVAL" ∨ l.name = "TIME")) ∨
      (o = .plus ∧ l.name = "INTERVAL" ∧ r.name = "TIME") := by
  simp [admits, and_assoc, or_assoc]

end Arithmetic

namespace Evaluation

open Trivalent.Action (Ends)

variable {registry : Registry} (host : Host) {l r t : DataType} {v w : Value} {o : Arithmetic}

-- A noted calculation with a result of a basic type.
theorem calculated_ends {x : Except EvalError Value} {E E' : EvalError → Prop} (call : Call)
    (ht : t.shape = .basic) (hx : Meets (·.basicName? = some t.name) E x)
    (he : ∀ err, E err → E' err) :
    (Action.note call >>= fun _ => Action.ofExcept x).Ends (Conforms t) E' :=
  .noted call <| hx.mono (fun _ h => .basic ht h) he

-- What is admitted where the type of the result is that of the left operand.
theorem admitted_left (hr : registry.Configured) (hr' : registry.Has r)
    (hi : l.name = "INTERVAL" → r.name ≠ "TIME") (hs : r.name = "STRING" → l.name = "STRING")
    (hw : Conforms r w) (hwn : w ≠ .null) (ha : o.admits l r) :
    (l.isNumber ∧ w.isNumber) ∨ (o.operation = .plus ∧ l.name = "STRING") ∨
      ((o.operation = .plus ∨ o.operation = .minus) ∧ w.basicName? = some "INTERVAL" ∧
        (l.name = "INTERVAL" ∨ l.name = "TIME")) := by
  rw [Arithmetic.operation_eq_plus, Arithmetic.operation_eq_minus]
  rcases Arithmetic.admits_iff.mp ha with ⟨hln, hrn⟩ | ⟨ho, hj⟩ | ⟨ho, hri, hli⟩ | ⟨_, hli, hrt⟩
  case inl         => exact .inl ⟨hln, hw.isNumber hwn hr' hr hrn⟩
  case inr.inl     => exact .inr (.inl ⟨ho, hj.elim id hs⟩)
  case inr.inr.inl =>
    exact .inr (.inr ⟨ho, hw.basicName_of_name hwn hr' hr Standard.interval_mem hri, hli⟩)
  case inr.inr.inr => exact absurd hrt (hi hli)

-- Arithmetic whose result has the type of the left operand.
theorem calculate_left_ends (hr : registry.Configured) (hl : registry.Has l) (hr' : registry.Has r)
    (hn : l.name = "INTEGER" → r.name ≠ "NUMERIC") (hi : l.name = "INTERVAL" → r.name ≠ "TIME")
    (hs : r.name = "STRING" → l.name = "STRING") (hv : Conforms l v) (hvn : v ≠ .null)
    (hw : Conforms r w) (hwn : w ≠ .null) :
    (calculate host l l r v w o.operation).Ends (Conforms l)
      fun err => o.admits l r → err.IsArithmetic := by
  have admitted (ha : o.admits l r) := admitted_left hr hr' hi hs hw hwn ha
  have hc := o.operation_ne_complement
  cases hl.basic_or hr
  case inl hb =>
    have hvb := hv.basicName_of_mem hvn hb
    cases Standard.Basic.of_mem hb
    case integer =>
      have hwb : w.basicName? ≠ some "NUMERIC" := fun h => hn rfl (hw.name_eq h nofun)
      refine calculated_ends _ rfl (Calculating.numeric_meets_integer nofun hvb hwb) fun err h ha => ?_
      cases admitted ha
      case inl h' => exact h h'.2 hc
      case inr h' => simp [Standard.integer, DataType.basic] at h'
    case numeric =>
      have hvn := hv.isNumber hvn hl hr rfl
      refine calculated_ends _ rfl (Calculating.numeric_meets_numeric (.inl rfl)) fun err h ha => ?_
      cases admitted ha
      case inl h' => exact h hvn h'.2 hc
      case inr h' => simp [Standard.numeric, DataType.basic] at h'
    case string =>
      refine calculated_ends _ rfl Calculating.string_meets fun err h ha => ?_
      rcases admitted ha with h' | h' | h'
      case inl     => simp [Standard.string, DataType.basic, DataType.isNumber] at h'
      case inr.inl => exact absurd h'.1 h
      case inr.inr => simp [Standard.string, DataType.basic] at h'
    case boolean =>
      refine .fail fun ha => ?_
      have h' := admitted ha
      simp [Standard.boolean, DataType.basic, DataType.isNumber] at h'
    case time =>
      refine calculated_ends _ rfl (Calculating.time_meets_left hvb) fun err h ha => ?_
      rcases admitted ha with h' | h' | ⟨ho, hwi, _⟩
      case inl     => simp [Standard.time, DataType.basic, DataType.isNumber] at h'
      case inr.inl => simp [Standard.time, DataType.basic] at h'
      case inr.inr => exact absurd ho (not_or.mpr (h hwi))
    case interval =>
      have hwt : w.basicName? ≠ some "TIME" := fun h => hi rfl (hw.name_eq h nofun)
      refine calculated_ends _ rfl (Calculating.time_meets_interval hvb hwt) fun err h ha => ?_
      rcases admitted ha with h' | h' | ⟨ho, hwi, _⟩
      case inl     => simp [Standard.interval, DataType.basic, DataType.isNumber] at h'
      case inr.inl => simp [Standard.interval, DataType.basic] at h'
      case inr.inr => exact h hwi (ho.imp_right .inl)
  case inr hb =>
    simp only [calculate, hb.1]
    refine .fail fun ha => ?_
    have hb := hb.2
    simp only [List.mem_cons, List.not_mem_nil, or_false, not_or] at hb
    simpa [DataType.isNumber, hb] using admitted ha

theorem calculate_ends {o : Arithmetic} (hr : registry.Configured) (hl : registry.Has l)
    (hr' : registry.Has r) (ht : ArithmeticType l r t) (hv : Conforms l v) (hvn : v ≠ .null)
    (hw : Conforms r w) (hwn : w ≠ .null) :
    (calculate host t l r v w o.operation).Ends (Conforms t)
      fun err => o.admits l r → err.IsArithmetic := by
  have hc := o.operation_ne_complement
  have hm := o.operation_ne_unaryMinus
  cases ht
  case left hn hi hs => exact calculate_left_ends host hr hl hr' hn hi hs hv hvn hw hwn
  case numeric hln hrn =>
    have hvn := hv.isNumber hvn hl hr hln
    have hwn := hw.isNumber hwn hr' hr hrn
    refine calculated_ends _ rfl (Calculating.numeric_meets_numeric (.inl rfl)) ?_
    exact fun err h _ => h hvn hwn hc
  case shifted hn =>
    cases hn
    case inl hn =>
      have hvb := hv.basicName_of_name hvn hl hr Standard.time_mem hn.1
      have hwb := hw.basicName_of_name hwn hr' hr Standard.interval_mem hn.2
      refine calculated_ends _ rfl (Calculating.time_meets_left hvb) fun err h ha => ?_
      have ⟨hp, hm⟩ := h hwb
      simp [Arithmetic.admits_iff, DataType.isNumber, hn] at ha
      simp [Arithmetic.operation_eq_plus, Arithmetic.operation_eq_minus] at hp hm
      exact absurd ha (not_or.mpr ⟨hp, hm⟩)
    case inr hn =>
      have hvb := hv.basicName_of_name hvn hl hr Standard.interval_mem hn.1
      have hwb := hw.basicName_of_name hwn hr' hr Standard.time_mem hn.2
      refine calculated_ends _ rfl (Calculating.time_meets_right hvb hwb hm) fun err h ha => ?_
      simp [Arithmetic.admits_iff, DataType.isNumber, hn] at ha
      exact absurd (Arithmetic.operation_eq_plus.mpr ha) h
  case joined hn =>
    refine calculated_ends _ rfl Calculating.string_meets fun err h ha => ?_
    have hp : o = .plus := by
      cases hn <;> simp_all [Arithmetic.admits_iff, DataType.isNumber]
    exact absurd (Arithmetic.operation_eq_plus.mpr hp) h

-- The negative of a value.
theorem negate_ends (hr : registry.Configured) (ht : registry.Has t) (hv : Conforms t v)
    (hn : v ≠ .null) :
    (calculate host t t t v v .unaryMinus).Ends (Conforms t)
      fun err => t.isSigned → err.IsArithmetic := by
  cases ht.basic_or hr
  case inl hb =>
    have hvb := hv.basicName_of_mem hn hb
    cases Standard.Basic.of_mem hb
    case integer =>
      have hvn : v.basicName? ≠ some "NUMERIC" := by simp [hvb, Standard.integer, DataType.basic]
      have hvi := hv.isNumber hn ht hr rfl
      refine calculated_ends _ rfl (Calculating.numeric_meets_integer (by decide) hvb hvn) ?_
      exact fun err h _ => h hvi nofun
    case numeric =>
      have hvn := hv.isNumber hn ht hr rfl
      refine calculated_ends _ rfl (Calculating.numeric_meets_numeric (.inl rfl)) ?_
      exact fun err h _ => h hvn hvn nofun
    case string       => exact .noted _ (.error nofun)
    case boolean   => exact .fail nofun
    case time =>
      exact calculated_ends _ rfl (Calculating.time_meets_left hvb)
        fun _ _ h => absurd h (by decide)
    case interval =>
      have hvt : v.basicName? ≠ some "TIME" := by simp [hvb, Standard.interval, DataType.basic]
      refine calculated_ends _ rfl (Calculating.time_meets_interval hvb hvt) ?_
      exact fun err h _ => h hvb (.inr (.inr rfl))
  case inr hb =>
    simp only [calculate, hb.1]
    refine .fail fun hs => ?_
    have hb := hb.2
    simp only [List.mem_cons, List.not_mem_nil, or_false, not_or] at hb
    simp [DataType.isSigned, DataType.isNumber, hb] at hs

-- Comparisons of values that conform to admitted types never fail.
theorem compare_ends {c : Comparison} (hr : registry.Configured) (hl : registry.Has l)
    (hr' : registry.Has r) (hv : Conforms l v) (hvn : v ≠ .null) (hw : Conforms r w)
    (hwn : w ≠ .null) :
    (compare host l r v w c).Ends (fun _ => True) fun _ => ¬c.admits l r := by
  by_cases ha : c.admits l r
  case neg =>
    intro s
    cases (compare host l r v w c s).outcome
    case ok    => exact .ok trivial
    case error => exact .error ha
  case pos =>
    rcases Comparison.admits_iff.mp ha with ⟨hln, hrn⟩ | ⟨hn, hb⟩ | ⟨hk, hs⟩ | ⟨hlb, hrb, hc⟩
    case inl =>
      have hm := Comparing.numeric_meets (c := c) (E := fun _ => ¬c.admits l r)
        (hv.isNumber hvn hl hr hln) (hw.isNumber hwn hr' hr hrn)
      cases DataType.isNumber_iff.mp hln
      case inl h =>
        have := hl.eq_basic hr Standard.integer_mem h
        subst this
        exact .noted _ hm
      case inr h =>
        have := hl.eq_basic hr Standard.numeric_mem h
        subst this
        exact .noted _ hm
    case inr.inl =>
      have := hl.eq hr' hn
      subst this
      rcases hb with hb | hb
      case inl =>
        have := hl.eq_basic hr Standard.string_mem hb
        subst this
        exact .noted _ <| Comparing.string_meets (hv.basicName hvn rfl) (hw.basicName hwn rfl)
      case inr =>
        cases hb
        case inl hb =>
          have := hl.eq_basic hr Standard.time_mem hb
          subst this
          exact .noted _ <| Comparing.time_meets (.inl rfl) (hv.basicName hvn rfl) (hw.basicName hwn rfl)
        case inr hb =>
          have := hl.eq_basic hr Standard.interval_mem hb
          subst this
          exact .noted _ <| Comparing.time_meets (.inr rfl) (hv.basicName hvn rfl) (hw.basicName hwn rfl)
    case inr.inr.inl =>
      simp only [DataType.same, Bool.and_eq_true, beq_iff_eq] at hs
      have := hl.eq hr' hs.1
      subst this
      cases hl.declares hr
      case enumeration constants _ =>
        have ⟨a, ha, hav⟩ := hv.constant hvn rfl
        have ⟨b, hb, hbw⟩ := hw.constant hwn rfl
        subst hav hbw
        exact .noted _ <| Comparing.enumeration_meets ha hb
      case basic ht =>
        cases Standard.Basic.of_mem ht <;> cases hk
      all_goals cases hk
    case inr.inr.inr =>
      have := hl.eq_basic hr Standard.boolean_mem hlb
      subst this
      have := hr'.eq_basic hr Standard.boolean_mem hrb
      subst this
      exact .noted _ <| Comparing.boolean_meets _ (hv.basicName hvn rfl) (hw.basicName hwn rfl) hc

end Evaluation

end Trivalent
