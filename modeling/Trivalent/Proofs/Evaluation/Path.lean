import Trivalent.Proofs.Action.Course
import Trivalent.Proofs.Evaluation.Walk
import Trivalent.Proofs.Expression.Binding
import Trivalent.Standard

/-!
# Composed paths

Names can be followed one after the other, and so can the attributes that they are found as: a path along two
lists of attributes comes to what a path along the second one comes to from where the first one leads. On its
way it reads and converts at most once at each attribute, in the order of the attributes.
-/

namespace Trivalent

/-! ## Names -/

namespace Path

variable {root : String} {t : DataType} {xs ys : List String}

theorem resolve_cons (root : String) (t : DataType) (name : String) (names : List String) :
    resolve root t (name :: names) =
      match t.attribute? name with
      | none   => .error (.unknownAttribute t.name name)
      | some a => (resolve root a.type names).map fun p => { p with attributes := a :: p.attributes } := by
  rw [resolve, follow]
  cases t.attribute? name
  case none   => rfl
  case some a =>
    simp only [resolve]
    cases follow a.type names <;> rfl

-- The induction is on the names that are followed first.
theorem resolve_append (root : String) (t : DataType) (xs ys : List String) :
    resolve root t (xs ++ ys) = (do
      let first ← resolve root t xs
      let last ← resolve root first.type ys
      return ⟨last.type, root, first.attributes ++ last.attributes⟩) := by
  induction xs generalizing t
  case nil =>
    change resolve root t ys = resolve root t ys >>= fun last => .ok ⟨last.type, root, last.attributes⟩
    rw [resolve]
    cases follow t ys <;> rfl
  case cons name xs hi =>
    rw [List.cons_append, resolve_cons, resolve_cons]
    cases t.attribute? name
    case none   => rfl
    case some a =>
      simp only [hi]
      cases resolve root a.type xs
      case error    => rfl
      case ok first =>
        change Except.map _ (resolve root first.type ys >>= _) = resolve root first.type ys >>= _
        cases resolve root first.type ys <;> rfl

theorem resolve_append_ok :
    resolve root t (xs ++ ys) = .ok p ↔ ∃ first last, resolve root t xs = .ok first ∧
      resolve root first.type ys = .ok last ∧ p = ⟨last.type, root, first.attributes ++ last.attributes⟩ := by
  simp only [resolve_append, bind_eq_ok, pure, Except.pure, Except.ok.injEq, exists_and_left,
    eq_comm (b := p)]

theorem resolve_append_error :
    resolve root t (xs ++ ys) = .error err ↔ resolve root t xs = .error err ∨
      ∃ first, resolve root t xs = .ok first ∧ resolve root first.type ys = .error err := by
  simp only [resolve_append, bind_eq_error, pure, Except.pure, reduceCtorEq, and_false, exists_false, or_false]

-- Names that cannot be followed end at the first one that no attribute has.
theorem resolve_error (h : resolve root t xs = .error err) :
    ∃ before name after p, xs = before ++ name :: after ∧ resolve root t before = .ok p ∧
      p.type.attribute? name = none ∧ err = .unknownAttribute p.type.name name := by
  induction xs generalizing t
  case nil => contradiction
  case cons name xs hi =>
    rw [resolve_cons] at h
    cases ha : t.attribute? name <;> simp only [ha] at h
    case none =>
      cases h
      exact ⟨[], name, xs, _, rfl, rfl, ha, rfl⟩
    case some a =>
      cases hr : resolve root a.type xs <;> rw [hr] at h <;> cases h
      case error =>
        have ⟨before, other, after, p, hx, hp, hn, he⟩ := hi hr
        refine ⟨name :: before, other, after, { p with attributes := a :: p.attributes }, ?_, ?_, hn, he⟩
        · rw [hx, List.cons_append]
        · simp only [resolve_cons, ha, hp]
          rfl

end Path

/-! ## Calls -/

-- What is done at an attribute, whatever the values are.
inductive Passage
  | reading    (accessor : Accessor) (field : Attribute)
  | conversion (adapter : Adapter) (type : DataType)

-- What is read is converted if there is an adapter.
def Attribute.passages (a : Attribute) : List Passage :=
  a.accessor.toList.map (.reading · a) ++ a.adapter.toList.map (.conversion · a.type)

def Call.passage? : Call → Option Passage
  | access accessor field _   => some (.reading accessor field)
  | toInternal adapter type _ => some (.conversion adapter type)
  | _                         => none

namespace Action

-- The calls of the action begin the given passages, and are all of them if it has a value that satisfies `Q`.
structure Passes (x : Action α) (Q : α → Prop) (passages : List Passage) : Prop where
  begins : ∀ s, (x s).calls.map Call.passage? <+: passages.map some
  all    : ∀ s a, (x s).outcome = .ok a → Q a → (x s).calls.map Call.passage? = passages.map some

namespace Passes

variable {x : Action α} {Q : α → Prop} {R : β → Prop} {first last : List Passage}

-- What comes to nothing that satisfies `Q` may make no calls at all.
theorem silent (h : ∀ s, (x s).calls = []) (hq : ∀ s a, (x s).outcome = .ok a → ¬Q a) (passages : List Passage) :
    x.Passes Q passages where
  begins s       := by simp [h]
  all s a ha hqa := absurd hqa (hq s a ha)

theorem quiet (h : ∀ s, (x s).calls = []) : x.Passes Q [] where
  begins s    := by simp [h]
  all s _ _ _ := by simp [h]

theorem note {Q : Unit → Prop} (h : call.passage? = some passage) : (Action.note call).Passes Q [passage] where
  begins _    := by simp [Action.note, h]
  all _ _ _ _ := by simp [Action.note, h]

theorem bind {f : α → Action β} (h : x.Passes (fun _ => True) first) (hf : ∀ a, (f a).Passes R last) :
    (x >>= f).Passes R (first ++ last) := by
  have split {s a} (ha : (x s).outcome = .ok a) : ((x >>= f) s).calls.map Call.passage? =
      first.map some ++ (f a (x s).store).calls.map Call.passage? := by
    rw [bind_ok ha, ← h.all s a ha trivial]
    simp [Ending.after]
  refine ⟨fun s => ?begins, fun s b hb hr => ?all⟩
  case begins =>
    cases ha : (x s).outcome
    case error =>
      rw [bind_error ha, List.map_append]
      exact (h.begins s).trans (List.prefix_append _ _)
    case ok a =>
      rw [split ha, List.map_append, List.prefix_append_right_inj]
      exact (hf a).begins _
  case all =>
    cases ha : (x s).outcome
    case error => simp [bind_error ha] at hb
    case ok a  =>
      rw [bind_ok ha] at hb
      rw [split ha, (hf a).all _ b hb hr, List.map_append]

-- A noted call of a capability that answers without further calls.
theorem noted (h : call.passage? = some passage) (hx : ∀ s, (x s).calls = []) :
    (Action.note call >>= fun _ => x).Passes Q [passage] :=
  (note h).bind fun _ => quiet hx

end Passes

theorem calls_ofExcept (o : Except EvalError α) (s : Store) : (ofExcept o s).calls = [] := by
  cases o <;> rfl

end Action

/-! ## Walks -/

namespace Evaluation

open Trivalent.Action (Passes)

-- The value that a walk leads to.
def lead (host : Host) (roots : Roots) (object : Value) (attributes : List Attribute) : Action Value :=
  (·.value) <$> walk host roots object attributes

variable (host : Host) (roots : Roots) {a : Attribute}

theorem lead_nil (object : Value) : lead host roots object [] = pure object :=
  map_pure _ _

theorem lead_null (attributes : List Attribute) : lead host roots .null attributes = pure .null := by
  rw [lead, walk_null, map_pure]
  rfl

theorem lead_cons (object : Value) (a : Attribute) (attributes : List Attribute) :
    lead host roots object (a :: attributes) =
      if object.isNull then pure .null else step host roots a object >>= (lead host roots · attributes) := by
  cases attributes
  case nil =>
    rw [lead, walk_singleton]
    split <;> simp [lead_nil, Evaluated.plain]
  case cons =>
    rw [lead, walk_cons_of_ne_nil host roots (by simp)]
    split
    case isTrue  => rw [map_pure]; rfl
    case isFalse => rw [map_bind]; rfl

-- The induction is on the attributes that are followed first.
theorem lead_append (object : Value) (before after : List Attribute) :
    lead host roots object (before ++ after) =
      lead host roots object before >>= (lead host roots · after) := by
  induction before generalizing object
  case nil => rw [List.nil_append, lead_nil, pure_bind]
  case cons a before hi =>
    rw [List.cons_append, lead_cons, lead_cons]
    split
    case isTrue  => rw [pure_bind, lead_null]
    case isFalse => simp only [hi, bind_assoc]

theorem access_passes (a : Attribute) (object : Value) :
    (access host a object).Passes (fun _ => True) (a.accessor.toList.map (.reading · a)) := by
  rw [access]
  cases a.accessor
  case none          => exact .silent (fun _ => rfl) nofun _
  case some accessor => cases accessor <;> exact .noted rfl (Action.calls_ofExcept _)

-- An attribute is read and what was read is converted, each of them at most once and in this order.
theorem step_passes (a : Attribute) (object : Value) :
    (step host roots a object).Passes (fun _ => True) a.passages := by
  refine (access_passes host a object).bind fun v => ?_
  cases a.adapter
  case none         => exact .quiet fun _ => rfl
  case some adapter =>
    simp only [toInternal]
    exact .noted rfl fun _ => rfl

-- A walk that comes to something other than null has passed all of its attributes.
theorem lead_passes (object : Value) (attributes : List Attribute) :
    (lead host roots object attributes).Passes (· ≠ .null) (attributes.flatMap Attribute.passages) := by
  induction attributes generalizing object
  case nil =>
    rw [lead_nil]
    exact .quiet fun _ => rfl
  case cons a attributes hi =>
    rw [lead_cons, List.flatMap_cons]
    split
    case isTrue =>
      refine .silent (fun _ => rfl) (fun _ _ h hn => ?_) _
      cases h
      contradiction
    case isFalse => exact (step_passes host roots a object).bind hi

theorem internal_path (p : Path) :
    (Expression.path p).internal host roots = lead host roots (roots.object p.root) p.attributes :=
  rfl

end Evaluation

-- The adapter converts values into their internal form without a look at the roots.
def Host.IgnoresRoots (host : Host) (a : Adapter) : Prop :=
  ∀ roots roots', host.toInternal a.name roots = host.toInternal a.name roots'

namespace Evaluation

variable {host : Host} {roots roots' : Roots} {attributes : List Attribute}

theorem step_roots (h : ∀ b ∈ a.adapter, host.IgnoresRoots b) (object : Value) :
    step host roots a object = step host roots' a object := by
  refine bind_congr fun v => ?_
  cases hb : a.adapter
  case none   => rfl
  case some b => simp only [toInternal, h b hb roots roots']

theorem lead_roots (h : ∀ a ∈ attributes, ∀ b ∈ a.adapter, host.IgnoresRoots b) (object : Value) :
    lead host roots object attributes = lead host roots' object attributes := by
  induction attributes generalizing object
  case nil => rw [lead_nil, lead_nil]
  case cons a attributes hi =>
    rw [List.forall_mem_cons] at h
    have hs : step host roots a object = step host roots' a object := step_roots h.1 object
    rw [lead_cons, lead_cons, hs]
    simp only [hi h.2]

end Evaluation

-- People with addresses. The cities are computed with in brackets.
namespace Addressed

def bracketed : Adapter :=
  ⟨"bracketed"⟩

def city : Attribute :=
  ⟨"Address", "city", Standard.string, some .field, some bracketed⟩

def home : Attribute :=
  ⟨"Person", "home", ⟨"Address", .entity [city], none, none⟩, some .field, none⟩

def person : DataType :=
  ⟨"Person", .entity [home], none, none⟩

def rome : Value :=
  .object [("city", .string "Rome")]

def bracket : Value → Value
  | .string s => .string ("[" ++ s ++ "]")
  | v         => v

def host : Host :=
  { Host.none with toInternal := fun _ _ _ v ps => (.ok (bracket v), ps) }

theorem ignoresRoots (a : Adapter) : host.IgnoresRoots a :=
  fun _ _ => rfl

-- A root for a person and one for the address alone.
def people : Roots :=
  Roots.empty.bind "p" person (.object [("home", rome)])

def addresses : Roots :=
  Roots.empty.bind "a" home.type rome

end Addressed

namespace Path

open Evaluation

-- Names are followed if and only if the first ones can be followed and the others can be from where they lead,
-- and they fail where either of them fails, at the first name that is unknown. A path along two lists of attributes
-- does what a path along the first one does. It ends there with a failure or with null, and otherwise goes on as
-- a path along the second one does from a root that is bound to the value. A path passes its attributes in their
-- order, as far as it comes.
theorem composes (host : Host) (roots : Roots) (root : String) :
    (∀ t xs ys,
      (∀ p, resolve root t (xs ++ ys) = .ok p ↔ ∃ first last, resolve root t xs = .ok first ∧
        resolve root first.type ys = .ok last ∧
          p = ⟨last.type, root, first.attributes ++ last.attributes⟩) ∧
      (∀ err, resolve root t (xs ++ ys) = .error err ↔ resolve root t xs = .error err ∨
        ∃ first, resolve root t xs = .ok first ∧ resolve root first.type ys = .error err) ∧
      ∀ err, resolve root t xs = .error err → ∃ before name after p, xs = before ++ name :: after ∧
        resolve root t before = .ok p ∧ p.type.attribute? name = none ∧
          err = .unknownAttribute p.type.name name) ∧
    ∀ t u as bs s,
      let first := (Expression.path ⟨t, root, as⟩).internal host roots s
      let whole := (Expression.path ⟨u, root, as ++ bs⟩).internal host roots s
      (∀ err, first.outcome = .error err → whole = first) ∧
      (first.outcome = .ok .null → whole = first) ∧
      (∀ v, first.outcome = .ok v →
        ∀ roots' root', roots'.object root' = v → (∀ b ∈ bs, ∀ a ∈ b.adapter, host.IgnoresRoots a) →
          whole = ((Expression.path ⟨u, root', bs⟩).internal host roots' first.store).after first.calls) ∧
      first.calls.map Call.passage? <+: (as.flatMap Attribute.passages).map some ∧
      ∀ v, first.outcome = .ok v → v ≠ .null →
        first.calls.map Call.passage? = (as.flatMap Attribute.passages).map some := by
  refine ⟨fun t xs ys => ⟨fun p => resolve_append_ok, fun err => resolve_append_error, fun err => resolve_error⟩,
    fun t u as bs s => ?_⟩
  have ⟨hbegins, hall⟩ := lead_passes host roots (roots.object root) as
  simp only [internal_path, lead_append]
  refine ⟨fun err he => ?failed, fun hn => ?missing, fun v hv roots' root' ho hb => ?reached, hbegins s, hall s⟩
  case failed =>
    rw [Action.bind_error he]
    exact Ending.ext he.symm rfl rfl
  case missing =>
    rw [Action.bind_ok hn, lead_null]
    exact Ending.ext hn.symm (List.append_nil _) rfl
  case reached =>
    rw [Action.bind_ok hv, ho, lead_roots hb]

-- The city of the home of a person is the city of the address, bound as a root of its own. A home has no street.
theorem composes_address :
    let s : Store := ⟨[], ⟨0⟩⟩
    let address := (Expression.path ⟨Addressed.home.type, "p", [Addressed.home]⟩).internal Addressed.host
      Addressed.people s
    let city := (Expression.path ⟨Standard.string, "p", [Addressed.home, Addressed.city]⟩).internal Addressed.host
      Addressed.people s
    resolve "p" Addressed.person ["home", "city"] =
        .ok ⟨Standard.string, "p", [Addressed.home, Addressed.city]⟩ ∧
      resolve "p" Addressed.person ["home", "street"] = .error (.unknownAttribute "Address" "street") ∧
      address.outcome = .ok Addressed.rome ∧
      city = ((Expression.path ⟨Standard.string, "a", [Addressed.city]⟩).internal Addressed.host Addressed.addresses
        address.store).after address.calls ∧
      city.outcome = .ok (.string "[Rome]") ∧ city.calls.length = 3 := by
  intro s address city
  have ⟨hnames, hwalk⟩ := composes Addressed.host Addressed.people "p"
  have ⟨hok, herror, _⟩ := hnames Addressed.person ["home"] ["city"]
  have ⟨_, herror, _⟩ := hnames Addressed.person ["home"] ["street"]
  have ⟨_, _, hreached, _⟩ := hwalk Addressed.home.type Standard.string [Addressed.home] [Addressed.city] s
  exact ⟨(hok _).mpr ⟨_, _, rfl, rfl, rfl⟩, (herror _).mpr (.inr ⟨_, rfl, rfl⟩), rfl,
    hreached Addressed.rome rfl Addressed.addresses "a" rfl fun _ _ a _ => Addressed.ignoresRoots a, rfl, rfl⟩

end Path

end Trivalent
