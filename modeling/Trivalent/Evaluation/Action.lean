import Trivalent.Arguments
import Trivalent.Evaluation.Error

/-!
# Actions

An evaluation is an action on a store. It ends with a value or an error and, in both cases, with the
calls of capabilities that it has made and the store that it leaves behind.
-/

namespace Trivalent

-- A source of random numbers.
structure Random where
  seed : UInt64
  deriving DecidableEq

namespace Random

-- One step of the generator, whose seeds run through all words.
def mix (seed : UInt64) : UInt64 :=
  let z := (seed ^^^ (seed >>> 30)) * 0xbf58476d1ce4e5b9
  let z := (z ^^^ (z >>> 27)) * 0x94d049bb133111eb
  z ^^^ (z >>> 31)

-- A multiple of `2 ^ (-53)`, at least zero and below one, and the source for the next one.
def next (r : Random) : Float × Random :=
  let seed := r.seed + 0x9e3779b97f4a7c15
  ((mix seed >>> 11).toFloat / 9007199254740992, ⟨seed⟩)

end Random

-- What actions share.
structure Store where
  properties : Dictionary Value
  random     : Random

-- A call of a capability with what it is given.
inductive Call
  | access     (accessor : Accessor) (field : Attribute) (object : Value)
  | toInternal (adapter : Adapter) (type : DataType) (value : Value)
  | toModel    (adapter : Adapter) (type : DataType) (value : Value)
  | compare    (comparator : Comparator) (leftType : DataType) (left : Value)
               (operator : Comparison) (rightType : DataType) (right : Value)
  | calculate  (calculator : Calculator) (target leftType : DataType) (left : Value)
               (operation : Operation) (rightType : DataType) (right : Value)
  | invoke     (function : Function) (arguments : Arguments)

-- The end of an action.
@[ext]
structure Ending (α : Type) where
  outcome : Except EvalError α
  calls   : List Call
  store   : Store

def Action (α : Type) : Type :=
  Store → Ending α

namespace Action

variable {α β γ : Type}

@[ext]
theorem ext {x y : Action α} (h : ∀ s, x s = y s) : x = y :=
  funext h

def pure (a : α) : Action α :=
  fun s => ⟨.ok a, [], s⟩

def fail (e : EvalError) : Action α :=
  fun s => ⟨.error e, [], s⟩

-- An error ends the whole action; its calls and its store remain.
def bind (x : Action α) (f : α → Action β) : Action β :=
  fun s =>
    let first := x s
    match first.outcome with
    | .error e => ⟨.error e, first.calls, first.store⟩
    | .ok a =>
      let second := f a first.store
      ⟨second.outcome, first.calls ++ second.calls, second.store⟩

instance : Monad Action where
  pure := pure
  bind := bind

theorem pure_def (a : α) : (Pure.pure a : Action α) = Action.pure a :=
  rfl

theorem bind_def (x : Action α) (f : α → Action β) : x >>= f = Action.bind x f :=
  rfl

theorem id_map (x : Action α) : id <$> x = x := by
  ext s : 1
  simp only [Functor.map, bind, Function.comp, pure]
  cases h : (x s).outcome <;> simp [← h]

theorem pure_bind (a : α) (f : α → Action β) : Pure.pure a >>= f = f a := by
  ext s : 1
  simp [pure_def, bind_def, pure, bind]

theorem bind_assoc (x : Action α) (f : α → Action β) (g : β → Action γ) :
    x >>= f >>= g = x >>= fun a => f a >>= g := by
  ext s : 1
  simp only [bind_def, bind]
  cases (x s).outcome with
  | error _ => rfl
  | ok a =>
    simp only
    cases (f a (x s).store).outcome <;> simp

instance : LawfulMonad Action :=
  .mk' Action id_map pure_bind bind_assoc

def ofExcept : Except EvalError α → Action α
  | .ok a    => pure a
  | .error e => fail e

-- Notes the call of a capability.
def note (call : Call) : Action Unit :=
  fun s => ⟨.ok (), [call], s⟩

-- Goes on with the outcome of an action, be it a value or an error.
def settle (x : Action α) (f : Except EvalError α → Action β) : Action β :=
  fun s =>
    let first := x s
    let second := f first.outcome first.store
    ⟨second.outcome, first.calls ++ second.calls, second.store⟩

def property (key : String) : Action (Option Value) :=
  fun s => ⟨.ok (s.properties.find? key), [], s⟩

-- Sets a property or, without a value, removes it.
def setProperty (key : String) (value : Option Value) : Action Unit :=
  fun s =>
    let properties :=
      match value with
      | some v => s.properties.insert key v
      | none   => s.properties.erase key
    ⟨.ok (), [], { s with properties }⟩

def random : Action Float :=
  fun s => ⟨.ok s.random.next.1, [], { s with random := s.random.next.2 }⟩

-- Lets a function of the properties decide the outcome and the new properties.
def onProperties (f : Dictionary Value → Except EvalError α × Dictionary Value) : Action α :=
  fun s => ⟨(f s.properties).1, [], { s with properties := (f s.properties).2 }⟩

end Action

end Trivalent
