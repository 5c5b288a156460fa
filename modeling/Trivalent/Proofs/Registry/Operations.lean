import Mathlib.Data.List.Induction
import Trivalent.Proofs.Registry.Entries

/-!
# Operations on registries

A registry is built by operations that add to it and by look-ups. Whatever the operations are and whatever
comes of them, each of them does no more than to enter what it adds. If no operation is given a type but those
that came of the operations before it, then the registry is closed.
-/

namespace Trivalent

namespace Registry

inductive Operation
  | addType      (type : DataType)
  | collectionOf (element : DataType)
  | addFunction  (function : Function)
  | getType      (name : String)
  | getFunction  (name : String)

inductive Answer
  | type     (type : DataType)
  | function (function : Function)
  | error    (error : DeclarationError)

-- The types that come with an answer.
def Answer.types : Answer → List DataType
  | type t     => [t]
  | function f => f.parts
  | error _    => []

namespace Operation

-- What the operation adds. Look-ups add nothing.
def entry? : Operation → Option Entry
  | addType t      => some (.type t)
  | collectionOf t => some (.type (.collection t none none))
  | addFunction f  => some (.function f)
  | getType _      => none
  | getFunction _  => none

def key? (op : Operation) : Option Key :=
  op.entry?.map Entry.key

-- The types that the operation is given.
def given : Operation → List DataType
  | addType t      => t.parts
  | collectionOf t => [t]
  | addFunction f  => f.parts
  | getType _      => []
  | getFunction _  => []

theorem parts_of_entry? {op : Operation} {e : Entry} (h : op.entry? = some e) : e.parts = op.given := by
  cases op <;> cases h <;> rfl

end Operation

-- The answer of an operation and the registry that it leaves.
def perform (r : Registry) : Operation → Answer × Registry
  | .addType t =>
    match r.addType t with
    | .ok r'     => (.type t, r')
    | .error err => (.error err, r)
  | .collectionOf element =>
    let (t, r') := r.collectionOf element
    (.type t, r')
  | .addFunction f =>
    match r.addFunction f with
    | .ok r'     => (.function f, r')
    | .error err => (.error err, r)
  | .getType name =>
    match r.requireType name with
    | .ok t      => (.type t, r)
    | .error err => (.error err, r)
  | .getFunction name =>
    match r.requireFunction name with
    | .ok f      => (.function f, r)
    | .error err => (.error err, r)

def run (r : Registry) (ops : List Operation) : Registry :=
  ops.foldl (fun r op => (r.perform op).2) r

def answers (r : Registry) : List Operation → List Answer
  | []        => []
  | op :: ops => (r.perform op).1 :: answers (r.perform op).2 ops

-- Every type that an operation is given came of an operation before it.
def Sourced (r : Registry) (ops : List Operation) : Prop :=
  ∀ before op after, ops = before ++ op :: after →
    ∀ t ∈ op.given, ∃ a ∈ r.answers before, ∃ s ∈ a.types, s.Holds t

variable {r : Registry} {e : Entry} {ops ops' : List Operation} {op op' : Operation}

theorem run_append (r : Registry) (ops ops' : List Operation) :
    r.run (ops ++ ops') = (r.run ops).run ops' :=
  List.foldl_append

theorem run_concat (r : Registry) (ops : List Operation) (op : Operation) :
    r.run (ops ++ [op]) = ((r.run ops).perform op).2 :=
  run_append ..

theorem answers_concat (r : Registry) (ops : List Operation) (op : Operation) :
    r.answers (ops ++ [op]) = r.answers ops ++ [((r.run ops).perform op).1] := by
  induction ops generalizing r
  case nil           => rfl
  case cons o ops hi => exact congrArg _ (hi _)

-- Whatever an operation answers, all that it does is to enter what it adds.
theorem perform_registry (r : Registry) (op : Operation) :
    (r.perform op).2 = op.entry?.elim r r.enter := by
  cases op <;> simp only [perform, Operation.entry?, Option.elim]
  case addType t => by_cases h : r.types.contains t.name <;> simp [addType, enter, h]
  case collectionOf element =>
    cases h : r.collectionType? element <;>
      simp_all [collectionOf, collectionType?, type?, enter, Dictionary.contains, DataType.collection]
  case addFunction f =>
    by_cases h : r.functions.contains (Text.upper f.name) <;> simp [addFunction, enter, h]
  case getType name     => split <;> rfl
  case getFunction name => split <;> rfl

theorem perform_error (h : (r.perform op).1 = .error err) : (r.perform op).2 = r := by
  cases op <;> simp only [perform] at h ⊢
  case collectionOf => contradiction
  all_goals
    split at h <;> cases h
    rfl

theorem perform_retains (r : Registry) (op : Operation) : r.Retains (r.perform op).2 := by
  rw [perform_registry]
  cases op.entry?
  case none   => exact .refl r
  case some e => exact .enter r e

theorem run_retains (r : Registry) (ops : List Operation) : r.Retains (r.run ops) := by
  induction ops generalizing r
  case nil           => exact .refl r
  case cons op _ hi => exact (r.perform_retains op).trans (hi _)

theorem Tidy.perform (h : r.Tidy) (op : Operation) : (r.perform op).2.Tidy := by
  rw [perform_registry]
  cases op.entry?
  case none   => exact h
  case some e => exact h.enter e

theorem Tidy.run (h : r.Tidy) (ops : List Operation) : (r.run ops).Tidy :=
  List.foldlRecOn ops _ h fun _ h op _ => h.perform op

theorem Tidy.perform_comm (h : r.Tidy) (hk : op.key? ≠ op'.key?) :
    ((r.perform op).2.perform op').2 = ((r.perform op').2.perform op).2 := by
  simp only [perform_registry, Operation.key?] at hk ⊢
  cases he : op.entry? <;> cases he' : op'.entry? <;> simp only [Option.elim]
  case some.some e e' => exact h.enter_comm (by simpa [he, he'] using hk)

-- There is a type of that name, or else the collection type is entered.
theorem collectionOf_eq (r : Registry) (element : DataType) :
    (∃ t, r.collectionType? element = some t ∧ r.collectionOf element = (t, r)) ∨
      (r.collectionType? element = none ∧ r.collectionOf element =
        (.collection element none none, r.register (.collection element none none))) := by
  rw [collectionOf]
  cases r.collectionType? element
  case none   => exact .inr ⟨rfl, rfl⟩
  case some t => exact .inl ⟨t, rfl, rfl⟩

-- The types that come with an answer are registered.
theorem perform_has (h : r.Tidy) (hc : (r.perform op).2.Closed) :
    ∀ t ∈ (r.perform op).1.types, (r.perform op).2.Has t := by
  cases op <;> simp only [perform] at hc ⊢
  case addType t =>
    cases hr : r.addType t
    case error => exact List.forall_mem_nil _
    case ok r' =>
      obtain ⟨_, hr⟩ := addType_eq_ok.mp hr
      subst hr
      exact List.forall_mem_singleton.mpr has_register
  case collectionOf element =>
    intro t ht
    cases List.mem_singleton.mp ht
    rcases r.collectionOf_eq element with ⟨t, ht, he⟩ | ⟨_, he⟩ <;> rw [he]
    case inl => exact h.has ht
    case inr => exact has_register
  case addFunction f =>
    cases hr : r.addFunction f <;> rw [hr] at hc
    case error => exact List.forall_mem_nil _
    case ok r' =>
      rw [addFunction] at hr
      split at hr <;> cases hr
      exact hc.functions _ _ (Dictionary.find?_insert_self r.functions)
  case getType name =>
    cases hr : r.type? name <;> simp only [requireType, hr]
    case none => exact List.forall_mem_nil _
    case some => exact List.forall_mem_singleton.mpr (h.has hr)
  case getFunction name =>
    rw [requireFunction] at hc ⊢
    cases hr : r.function? name <;> rw [hr] at hc
    case none => exact List.forall_mem_nil _
    case some => exact hc.functions _ _ hr

theorem sourced_nil (r : Registry) : r.Sourced [] := by
  intro before op after h
  simp at h

theorem sourced_concat : r.Sourced (ops ++ [op]) ↔
    r.Sourced ops ∧ ∀ t ∈ op.given, ∃ a ∈ r.answers ops, ∃ s ∈ a.types, s.Holds t := by
  constructor
  case mp =>
    intro h
    exact ⟨fun before op' after hs => h before op' (after ++ [op]) (by simp [hs]), h ops op [] rfl⟩
  case mpr =>
    intro ⟨h, hop⟩ before op' after hs
    cases List.eq_nil_or_concat after
    case inl ha =>
      subst ha
      have ⟨hb, ho⟩ := List.append_inj' hs rfl
      cases ho
      exact hb ▸ hop
    case inr ha =>
      have ⟨middle, last, ha⟩ := ha
      have ⟨hb, _⟩ := List.append_inj' (hs.trans (by simp [ha] : _ = (before ++ op' :: middle) ++ [last])) rfl
      exact h before op' middle hb

-- The induction is on the last operation. What it is given came of operations before it and is registered.
theorem run_closed (ht : r.Tidy) (hc : r.Closed) (h : r.Sourced ops) :
    (r.run ops).Closed ∧ ∀ a ∈ r.answers ops, ∀ t ∈ a.types, (r.run ops).Has t := by
  induction ops using List.reverseRecOn
  case nil => exact ⟨hc, nofun⟩
  case append_singleton ops op hi =>
    have ⟨h, hop⟩ := sourced_concat.mp h
    have ⟨hc, ha⟩ := hi h
    have given : ∀ t ∈ op.given, (r.run ops).Has t := by
      intro t hm
      have ⟨a, hm, s, hs, ht⟩ := hop t hm
      exact hc.holds (ha a hm s hs) ht
    have hc' : ((r.run ops).perform op).2.Closed := by
      rw [perform_registry]
      cases he : op.entry?
      case none   => exact hc
      case some e => exact hc.enter (Operation.parts_of_entry? he ▸ given)
    rw [run_concat, answers_concat]
    refine ⟨hc', fun a hm t hm' => ?_⟩
    rw [List.mem_append, List.mem_singleton] at hm
    cases hm
    case inl hm => exact (perform_retains _ op).types.has (ha a hm t hm')
    case inr hm => exact perform_has (ht.run ops) hc' t (hm ▸ hm')

/-! ## Building -/

-- What is known of a registry that is being built: what it has it keeps, types have their own names,
-- functions have names that are apart, failures and look-ups change nothing, a collection type is registered
-- once, and it makes no difference which of two additions under different keys comes first.
structure WriteOnce (r : Registry) : Prop where
  retains    : ∀ ops, r.Retains (r.run ops)
  named      : ∀ name t, r.type? name = some t → t.name = name
  apart      : (Dictionary.values r.functions).Pairwise fun f g => Text.upper f.name ≠ Text.upper g.name
  unchanged  : ∀ op, op.entry? = none ∨ (∃ err, (r.perform op).1 = .error err) → (r.perform op).2 = r
  collection : ∀ element ops, ∃ t, (r.perform (.collectionOf element)).1 = .type t ∧
               ((r.perform (.collectionOf element)).2 = r ∨
                r.type? t.name = none ∧ (r.perform (.collectionOf element)).2 = r.register t) ∧
               ((r.perform (.collectionOf element)).2.run ops).perform (.collectionOf element) =
                (.type t, (r.perform (.collectionOf element)).2.run ops)
  commutes   : ∀ op op', op.key? ≠ op'.key? → r.run [op, op'] = r.run [op', op]

-- The collection type of an element, once it is there, stays what it is.
theorem collectionOf_again (r : Registry) (element : DataType) (ops : List Operation) :
    ((r.collectionOf element).2.run ops).collectionOf element =
      ((r.collectionOf element).1, (r.collectionOf element).2.run ops) := by
  have hn : (r.collectionOf element).2.collectionType? element = some (r.collectionOf element).1 := by
    rcases r.collectionOf_eq element with ⟨t, ht, he⟩ | ⟨_, he⟩ <;> rw [he]
    case inl => exact ht
    case inr => exact has_register
  have hn := (run_retains _ ops).types _ _ hn
  generalize (r.collectionOf element).2.run ops = r', (r.collectionOf element).1 = t at hn ⊢
  rcases r'.collectionOf_eq element with ⟨t', ht, he⟩ | ⟨ht, _⟩
  case inl => cases hn.symm.trans ht; exact he
  case inr => simp [collectionType?, hn] at ht

theorem Tidy.writeOnce (h : r.Tidy) : r.WriteOnce where
  retains      := run_retains r
  named        := h.named
  apart        := h.functions_apart
  unchanged op := by
    rintro (he | ⟨err, he⟩)
    · rw [perform_registry, he, Option.elim]
    · exact perform_error he
  collection element ops := by
    refine ⟨(r.collectionOf element).1, rfl, ?_, ?_⟩
    · rcases r.collectionOf_eq element with ⟨t, _, he⟩ | ⟨hn, he⟩
      case inl => exact .inl (congrArg Prod.snd he)
      case inr => exact .inr (he ▸ ⟨hn, congrArg Prod.snd he⟩)
    · exact congrArg (fun p => (Answer.type p.1, p.2)) (collectionOf_again r element ops)
  commutes _ _ := h.perform_comm

theorem building {start : Registry} (hs : start = .empty ∨ start = .standard) :
    start.Tidy ∧ start.Closed := by
  cases hs <;> subst start
  case inl => exact ⟨empty_tidy, empty_closed⟩
  case inr => exact ⟨standard_tidy, standard_closed⟩

-- Whatever was done to an empty or the standard registry, names have been given once. The registry is closed if
-- every type that was given to an operation came of an operation before it.
theorem run_writeOnce {start : Registry} (hs : start = .empty ∨ start = .standard) (ops : List Operation) :
    (start.run ops).WriteOnce ∧ (start.Sourced ops → (start.run ops).Closed) := by
  have ⟨ht, hc⟩ := building hs
  exact ⟨(ht.run ops).writeOnce, fun h => (run_closed ht hc h).1⟩

-- People who have names, and the names of several ones.
def person : DataType :=
  .entity "Person" [.declare "name" Standard.string (some .field) none] none none

def people : DataType :=
  .collection person none none

def names : Function :=
  .declare "Names" [⟨"people", 0, people, none⟩] none (some Standard.string) none none

def census : List Operation :=
  [.getType "STRING", .addType person, .collectionOf person, .addFunction names]

theorem census_sourced : Registry.standard.Sourced census := by
  have hs : Registry.standard.Sourced
      ([] ++ [.getType "STRING"] ++ [.addType person] ++ [.collectionOf person] ++ [.addFunction names]) := by
    simp only [sourced_concat]
    refine ⟨⟨⟨⟨sourced_nil _, nofun⟩, fun t ht => ?type⟩, fun t ht => ?collection⟩, fun t ht => ?function⟩
    case type =>
      cases List.mem_singleton.mp ht
      exact ⟨.type Standard.string, .head _, _, .head _, .self⟩
    case collection =>
      cases List.mem_singleton.mp ht
      exact ⟨.type person, .tail _ (.head _), _, .head _, .self⟩
    case function =>
      cases List.mem_pair.mp ht <;> subst t
      case inl => exact ⟨.type people, .tail _ (.tail _ (.head _)), _, .head _, .self⟩
      case inr => exact ⟨.type Standard.string, .head _, _, .head _, .self⟩
  exact hs

theorem run_writeOnce_census :
    (Registry.standard.run census).WriteOnce ∧ Registry.standard.Sourced census ∧
      (Registry.standard.run census).Closed ∧
      (Registry.standard.run census).type? "Collection<Person>" = some people ∧
      ((Registry.standard.run census).function? "names").map (·.name) = some "Names" := by
  have ⟨hw, hc⟩ := run_writeOnce (.inr rfl : Registry.standard = .empty ∨ _) census
  exact ⟨hw, census_sourced, hc census_sourced, rfl, by decide +kernel⟩

end Registry

end Trivalent
