import Trivalent.Evaluation
import Trivalent.Proofs.Action.Course
import Trivalent.Proofs.Calculating.Integer
import Trivalent.Proofs.Invoking.Search

/-!
# Counting characters

The place of a string in another one is the least index from the start on where its characters stand, and the
length of a joined string is the sum of the lengths of its parts.
-/

namespace Trivalent

/-! ## Actions with a value -/

namespace Action

variable {α β : Type} {x : Action α} {f : α → Action β} {s t u : Store}

-- From the store `s` the action comes to the value `a` and leaves the store `t` behind.
structure Yields (x : Action α) (s : Store) (a : α) (t : Store) : Prop where
  outcome : (x s).outcome = .ok a
  store   : (x s).store = t

namespace Yields

theorem pure (a : α) (s : Store) : (Pure.pure a : Action α).Yields s a s :=
  ⟨rfl, rfl⟩

theorem ofExcept {o : Except EvalError α} (h : o = .ok a) (s : Store) : (ofExcept o).Yields s a s := by
  subst h
  exact pure a s

theorem bind (h : x.Yields s a t) (hf : (f a).Yields t b u) : (x >>= f).Yields s b u := by
  constructor <;> rw [bind_ok h.outcome, h.store]
  case outcome => exact hf.outcome
  case store   => exact hf.store

theorem map (g : α → β) (h : x.Yields s a t) : (g <$> x).Yields s (g a) t := by
  rw [map_eq_pure_bind]
  exact h.bind (pure _ t)

-- The value does not depend on the calls that are noted.
theorem note (call : Call) (h : x.Yields s a t) : (Action.note call >>= fun _ => x).Yields s a t :=
  bind ⟨rfl, rfl⟩ h

end Yields

end Action

/-! ## Lengths -/

namespace Expression

open Evaluation

variable {host : Host} {roots : Roots} {s t u : Store} {x y e : Expression}

-- From the store `s` the expression has the value `v` without a pending adapter.
def Yields (host : Host) (roots : Roots) (e : Expression) (s : Store) (v : Value) (t : Store) : Prop :=
  (e.meaning host roots).Yields s (.plain v) t

-- A call of the function for the length of a string.
def lengthOf (e : Expression) : Expression :=
  .call Standard.integer Standard.length [(⟨"string", 0, Standard.string, none⟩, e)]

namespace Yields

theorem literal (host : Host) (roots : Roots) (type : DataType) (v : Value) (s : Store) :
    (literal type v).Yields host roots s v s :=
  .pure _ s

theorem evaluate (h : e.Yields host roots s v t) : (e.evaluate host roots).Yields s v t :=
  h.bind (.pure v t)

theorem arithmetic (hx : x.Yields host roots s l t) (hy : y.Yields host roots t r u) (hl : l.isNull = false)
    (hr : r.isNull = false)
    (hc : (calculate host target x.type y.type l r o.operation).Yields u v u) :
    (Expression.arithmetic target o x y).Yields host roots s v u := by
  refine .map _ <| (hx.map _).bind ?_
  rw [Evaluated.plain, hl]
  refine (hy.map _).bind ?_
  rw [Evaluated.plain, hr]
  exact hc

-- Two strings are joined.
theorem plus_strings (hx : x.Yields host roots s (.string a) t) (hy : y.Yields host roots t (.string b) u) :
    (Expression.arithmetic Standard.string .plus x y).Yields host roots s (.string (a ++ b)) u :=
  hx.arithmetic hy rfl rfl (.note _ (.ofExcept rfl u))

-- Two integers are added where a word holds the sum.
theorem plus_integers (hx : x.Yields host roots s (.integer i) t) (hy : y.Yields host roots t (.integer j) u)
    (hn : n.toInt = i.toInt + j.toInt) :
    (Expression.arithmetic Standard.integer .plus x y).Yields host roots s (.integer n) u := by
  have hc : Calculating.numeric Standard.integer (.integer i) (.integer j) .plus = .ok (.integer n) :=
    (Calculating.checkedInteger_exact .plus i j _).eq_ok hn
  exact hx.arithmetic hy rfl rfl (.note _ (.ofExcept hc u))

theorem length (h : e.Yields host roots s (.string a) t) :
    (lengthOf e).Yields host roots s (.integer (Int64.ofNat a.length)) t := by
  refine .bind (t := t) (a := ⟨[(⟨"string", 0, Standard.string, none⟩, .string a)]⟩) ?arguments ?run
  case arguments => exact .bind (h.bind (.bind (.pure _ t) (.pure _ t))) (.pure _ t)
  case run       => exact .note _ (.bind (.ofExcept rfl t) (.pure _ t))

end Yields

end Expression

/-! ## Places -/

namespace Invoking

open Expression

-- The characters of `needle` stand at the index, which is neither before the start nor negative.
def Stands (needle haystack : String) (start : Int) (index : Nat) : Prop :=
  max start 0 ≤ index ∧ index + needle.length ≤ haystack.length ∧
    needle.toList <+: haystack.toList.drop index

-- A place is the least index where the needle stands, or minus one if there is none.
structure Located (needle haystack : String) (start : Int) (place : Int64) : Prop where
  least   : ∀ i : Nat, place.toInt = i ↔ IsLeast {i | Stands needle haystack start i} i
  missing : place = -1 ↔ ∀ i, ¬Stands needle haystack start i
  past    : haystack.length < start → place = -1
  empty   : needle = "" → start ≤ haystack.length → place.toInt = max start 0

-- The values of the arguments. The start may be left off.
structure Asked (values : Arguments) (needle haystack : String) (start : Option Int64) : Prop where
  needle   : values.get? 0 = some (.string needle)
  haystack : values.get? 1 = some (.string haystack)
  start    : values.get? 2 = start.map .integer

-- A start that is left off is the one of the string.
def first (start : Option Int64) : Int :=
  start.elim 0 (·.toInt)

namespace Accented

-- The values for the place of a character of two bytes in a string with several such characters.
def values (start : Option Int64) : Arguments :=
  let given : Arguments := ⟨[(⟨"substring", 0, Standard.string, none⟩, .string "é"),
    (⟨"string", 1, Standard.string, none⟩, .string "été né")]⟩
  match start with
  | none   => given
  | some i => given.insert ⟨"start", 2, Standard.integer, none⟩ (.integer i)

theorem asked (start : Option Int64) : Asked (values start) "é" "été né" start := by
  cases start <;> exact ⟨rfl, rfl, rfl⟩

def word : Arguments :=
  ⟨[(⟨"string", 0, Standard.string, none⟩, .string "né")]⟩

def summer : Expression :=
  .literal Standard.string (.string "été")

def born : Expression :=
  .literal Standard.string (.string " né")

end Accented

variable {f : Function} {values : Arguments} {needle haystack : String} {start : Int} {o : Option Nat}

theorem stands_iff :
    Stands needle haystack start i ↔ start.toNat ≤ i ∧ Occurs needle.toList haystack.toList i := by
  simp only [Stands, Occurs, String.length_toList]
  have hs : max start 0 ≤ i ↔ start.toNat ≤ i := by omega
  rw [hs]

theorem stands_empty_iff : Stands "" haystack start i ↔ max start 0 ≤ i ∧ i ≤ haystack.length := by
  simp [Stands]

theorem toInt_place_iff (h : ∀ i, o = some i → i < 0x8000000000000000) :
    (place o).toInt = (i : Nat) ↔ o = some i := by
  cases o
  case none => simp [place]
  case some k =>
    rw [place, Int64.toInt_ofNat_of_lt (h k rfl), Option.some_inj]
    exact Int.ofNat_inj

theorem place_eq_iff (h : ∀ i, o = some i → i < 0x8000000000000000) : place o = -1 ↔ o = none := by
  cases o
  case none => simp [place]
  case some k =>
    have hk := (toInt_place_iff h).mpr rfl
    refine iff_of_false (fun hp => ?_) (Option.some_ne_none k)
    simp [hp] at hk

theorem located_of_least (hl : Least (Stands needle haystack start) o) (hs : haystack.length < 0x8000000000000000) :
    Located needle haystack start (place o) := by
  have ho : ∀ i, o = some i → i < 0x8000000000000000 := fun i hi => by
    have hi := (hl.eq_some_iff.mp hi).1.2.1
    omega
  have least (i : Nat) : (place o).toInt = i ↔ IsLeast {i | Stands needle haystack start i} i :=
    (toInt_place_iff ho).trans hl.eq_some_iff
  have missing : place o = -1 ↔ ∀ i, ¬Stands needle haystack start i :=
    (place_eq_iff ho).trans hl.eq_none_iff
  refine { least, missing, past := fun hp => ?past, empty := fun hn hi => ?empty }
  case past =>
    refine missing.mpr fun i ⟨hi, hl, _⟩ => ?_
    omega
  case empty =>
    subst hn
    have hm : (max start 0).toNat = max start 0 := by omega
    rw [← hm, least]
    refine ⟨stands_empty_iff.mpr (by omega), fun i hi => ?_⟩
    have hi := stands_empty_iff.mp hi
    omega

theorem locate_eq {start : Option Int64} (h : Asked values needle haystack start) : locate f values =
    .ok (.integer (place (locateChars needle.toList haystack.toList (first start).toNat))) := by
  cases start <;> simp [locate, h.needle, h.haystack, h.start, first]

theorem locate_located {start : Option Int64} (h : Asked values needle haystack start)
    (hs : haystack.length < 0x8000000000000000) :
    ∃ n, locate f values = .ok (.integer n) ∧ Located needle haystack (first start) n := by
  have hl := locateChars_least needle.toList haystack.toList (first start).toNat
  simp only [← stands_iff] at hl
  exact ⟨_, locate_eq h, located_of_least hl hs⟩

-- Places and lengths count characters. The place of a string in another one is the least index from the start on
-- where its characters stand, and minus one exactly if there is no such index. A start before the string is its
-- first index. The length of a joined string is the sum of the lengths of its parts. All this is for strings with
-- no more characters than a word counts, as strings in memory are.
theorem counts_characters (host : Host) (roots : Roots) :
    (∀ f bodies values needle haystack start,
      Asked values needle haystack start → haystack.length < 0x8000000000000000 →
      (∃ n, run host roots f .locate bodies values = Action.ofExcept (.ok (.integer n)) ∧
        Located needle haystack (first start) n) ∧
      ∀ others, Asked others needle haystack none → first start ≤ 0 →
        run host roots f .locate bodies values = run host roots f .locate bodies others) ∧
    (∀ f bodies values s, values.get? 0 = some (.string s) → s.length < 0x8000000000000000 →
      ∃ n, run host roots f .length bodies values = Action.ofExcept (.ok (.integer n)) ∧ n.toInt = s.length) ∧
    ∀ s t u x y a b, x.Yields host roots s (.string a) t → y.Yields host roots t (.string b) u →
      a.length + b.length < 0x8000000000000000 →
      ∃ n : Int64, n.toInt = a.length + b.length ∧
        (lengthOf (.arithmetic Standard.string .plus x y)).Yields host roots s (.integer n) u ∧
        (Expression.arithmetic Standard.integer .plus (lengthOf x) (lengthOf y)).Yields host roots s
          (.integer n) u := by
  refine ⟨fun f bodies values needle haystack start h hs => ⟨?located, fun others ho hf => ?negative⟩,
    fun f bodies values s h hs => ?length, fun s t u x y a b hx hy hs => ?sum⟩
  case located =>
    have ⟨n, hn, hl⟩ := locate_located (f := f) h hs
    exact ⟨n, congrArg Action.ofExcept hn, hl⟩
  case negative =>
    have hz : (first start).toNat = (first none).toNat := Int.toNat_of_nonpos hf
    rw [run, run, locate_eq h, locate_eq ho, hz]
  case length =>
    refine ⟨Int64.ofNat s.length, ?_, Int64.toInt_ofNat_of_lt hs⟩
    rw [run, Invoking.length, h]
  case sum =>
    have ha : (Int64.ofNat a.length).toInt = a.length := Int64.toInt_ofNat_of_lt (by omega)
    have hb : (Int64.ofNat b.length).toInt = b.length := Int64.toInt_ofNat_of_lt (by omega)
    have hn : (Int64.ofNat (a ++ b).length).toInt = a.length + b.length := by
      rw [String.length_append, Int64.toInt_ofNat_of_lt hs, Int.natCast_add]
    exact ⟨_, hn, (hx.plus_strings hy).length, hx.length.plus_integers hy.length (by rw [hn, ha, hb])⟩

-- The second é is at the index 2, although its bytes are at the offset 3.
theorem counts_characters_accented :
    let s : Store := ⟨[], ⟨0⟩⟩
    let locates := fun start => run .none .empty Standard.locate .locate [] (Accented.values start)
    ((∀ start, Asked (Accented.values start) "é" "été né" start) ∧ "été né".length < 0x8000000000000000 ∧
      first (some (-4)) ≤ 0) ∧
    (∃ n, locates (some 1) = Action.ofExcept (.ok (.integer n)) ∧ n = 2 ∧ Located "é" "été né" 1 n) ∧
    locates (some (-4)) = locates none ∧
    (∃ n, run .none .empty Standard.length .length [] Accented.word = Action.ofExcept (.ok (.integer n)) ∧
      n.toInt = 2) ∧
    ∃ n : Int64, n.toInt = 6 ∧
      ((lengthOf (.arithmetic Standard.string .plus Accented.summer Accented.born)).evaluate .none .empty).Yields
        s (.integer n) s := by
  intro s locates
  have ⟨hlocate, hlength, hsum⟩ := counts_characters .none .empty
  have hs : "été né".length < 0x8000000000000000 := by decide
  have hneg : first (some (-4)) ≤ 0 := by decide
  have ⟨⟨n, hr, hl⟩, _⟩ := hlocate Standard.locate [] _ _ _ _ (Accented.asked (some 1)) hs
  have ⟨_, hr'⟩ := hlocate Standard.locate [] _ _ _ _ (Accented.asked (some (-4))) hs
  have hn : Except.ok (Value.integer 2) = Except.ok (Value.integer n) :=
    congrArg (fun x : Action Value => (x s).outcome) hr
  have hword := hlength Standard.length [] Accented.word "né" rfl (by decide)
  have ⟨m, hm, hy, _⟩ := hsum s s s Accented.summer Accented.born _ _ (.literal ..) (.literal ..) (by decide)
  have hz := hr' _ (Accented.asked none) hneg
  refine ⟨⟨Accented.asked, hs, hneg⟩, ⟨n, hr, ?_, hl⟩, hz, hword, m, hm, hy.evaluate⟩
  cases hn
  rfl

end Invoking

end Trivalent
