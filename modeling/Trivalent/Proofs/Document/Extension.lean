import Trivalent.Document.Resolution
import Trivalent.Proofs.Registry.Operations
import Trivalent.Proofs.Typing.Soundness

/-!
# Resolution where more is known

To add types, functions and roots makes more documents resolve. Documents that resolve without the additions
resolve to the same expressions with them: names keep what they were given to, and no step of the resolution
goes on because a name is missing.
-/

namespace Trivalent

-- What comes of `x` comes of `y` as well. Where `x` fails, anything may come of `y`.
def Persists (x y : Except ε α) : Prop :=
  ∀ a, x = .ok a → y = .ok a

namespace Persists

variable {x y : Except ε α}

theorem refl (x : Except ε α) : Persists x x :=
  fun _ h => h

theorem error (err : ε) : Persists (.error err) y :=
  nofun

theorem bind {f g : α → Except ε β} (h : Persists x y) (hf : ∀ a, Persists (f a) (g a)) :
    Persists (x >>= f) (y >>= g) := by
  intro b hb
  have ⟨a, ha, hb⟩ := bind_eq_ok.mp hb
  exact bind_eq_ok.mpr ⟨a, h a ha, hf a b hb⟩

theorem mapError (h : Persists x y) (g : ε → ε') : Persists (x.mapError g) (y.mapError g) :=
  fun a ha => mapError_eq_ok.mpr (h a (mapError_eq_ok.mp ha))

end Persists

-- What `roots` has as the type of a name, `roots'` has as its type, too.
def Roots.Extends (roots roots' : Roots) : Prop :=
  ∀ name t, roots.type? name = some t → roots'.type? name = some t

namespace Registry.Retains

variable {r r' : Registry}

theorem requireType (h : r.Retains r') (name : String) :
    Persists (r.requireType name) (r'.requireType name) :=
  fun _ ht => requireType_eq_ok.mpr (h.types _ _ (requireType_eq_ok.mp ht))

theorem requireFunction (h : r.Retains r') (name : String) :
    Persists (r.requireFunction name) (r'.requireFunction name) := by
  rw [Registry.requireFunction]
  split
  case h_1 f hf =>
    have hf := h.functions _ _ _ rfl hf
    rw [Registry.requireFunction, hf]
    exact .refl _
  case h_2 => exact .error _

end Registry.Retains

namespace Resolution

variable {r r' : Registry} {roots roots' : Roots}

theorem requireType_persists (h : r.Retains r') (name : String) :
    Persists (requireType r name) (requireType r' name) :=
  (h.requireType name).mapError _

-- Which rule applies depends on the names of the operands alone.
theorem arithmeticType_persists (h : r.Retains r') (left right : DataType) :
    Persists (arithmeticType r left right) (arithmeticType r' left right) := by
  simp only [arithmeticType]
  split
  case isTrue  => exact .refl _
  case isFalse =>
    split
    case h_7 => exact .refl _
    all_goals exact requireType_persists h _

theorem inferredType_persists (h : r.Retains r') (json : Json) :
    Persists (inferredType r json) (inferredType r' json) :=
  (Persists.refl _).bind fun _ => requireType_persists h _

theorem scalar_persists (h : r.Retains r') (json : Json) (type : Option String) :
    Persists (scalar r json type) (scalar r' json type) := by
  cases type
  case none => exact (inferredType_persists h json).bind fun _ => .refl _
  case some => exact (requireType_persists h _).bind fun _ => .refl _

theorem elementType_persists (h : r.Retains r') (items : List Json) (type : Option String) :
    Persists (elementType r items type) (elementType r' items type) := by
  simp only [elementType]
  split
  case h_1 => exact requireType_persists h _
  case h_2 =>
    split
    case h_1 => exact inferredType_persists h _
    case h_2 => exact .error _

theorem literal_persists (h : r.Retains r') (json : Json) (type : Option String) :
    Persists (literal r json type) (literal r' json type) := by
  simp only [literal]
  split
  case h_1 =>
    refine (elementType_persists h _ _).bind fun element => (Persists.refl _).bind fun literals => ?_
    exact (requireType_persists h _).bind fun _ => .refl _
  case h_2 => exact scalar_persists h _ _

theorem collection_persists (h : r.Retains r') (items : List Expression) (element : Option String) :
    Persists (collection r items element) (collection r' items element) := by
  have ht : Persists (itemType r items element) (itemType r' items element) := by
    simp only [itemType]
    split
    case h_1 => exact requireType_persists h _
    case h_2 => exact .refl _
    case h_3 => exact .error _
  exact ht.bind fun _ => (requireType_persists h _).bind fun _ => .refl _

theorem path_persists (h : roots.Extends roots') (root : String) (names : List String) :
    Persists (path roots root names) (path roots' root names) := by
  rw [path]
  split
  case h_1 => exact .error _
  case h_2 t ht =>
    rw [path, h _ _ ht]
    exact .refl _

theorem negation_persists (h : r.Retains r') (e : Expression) : Persists (negation r e) (negation r' e) := by
  simp only [negation]
  split
  case isTrue  => exact .refl _
  case isFalse => exact (requireType_persists h _).bind fun _ => .refl _

end Resolution

namespace Priced

-- Orders and their root come beside the items. The last two additions fail, since their names are taken.
def order : DataType :=
  .entity "Order" [.declare "item" item (some .field) none] none none

def additions : List Registry.Operation :=
  [.addType order, .collectionOf item, .addFunction { Standard.length with name := "SIZE" },
   .addType (.basic "INTEGER" none none),
   .addFunction { Standard.length with name := "Length", result := none }]

def ordered : Roots :=
  roots.bind "order" order (.object [])

-- The price raised by one is at least the length of a string.
def comparison : Document :=
  .comparison ">="
    (.arithmetic "+" (.path "item" ["price"]) (.literal (.number (.integer 1)) none) none)
    (.call "length" (.positional [.literal (.string "ab") none])) false

def compared : Expression :=
  let raised := Expression.arithmetic Standard.integer .plus (.path ⟨Standard.integer, "item", [price]⟩)
    (.literal Standard.integer (.integer 1))
  let length := Expression.call Standard.integer Standard.length
    [(⟨"string", 0, Standard.string, none⟩, .literal Standard.string (.string "ab"))]
  .comparison Standard.boolean .greaterOrEqual raised length false

end Priced

namespace Document

open Resolution

variable {r r' : Registry} {roots roots' : Roots}

mutual

-- The induction is over the document, its lists of children included. A step that looks up no name is the
-- same in both resolutions.
theorem resolve_persists (h : r.Retains r') (hr : roots.Extends roots') (d : Document) :
    Persists (d.resolve r roots) (d.resolve r' roots') := by
  have hb := requireType_persists h "BOOLEAN"
  cases d <;> rw [resolve, resolve]
  case literal v t     => exact literal_persists h v t
  case path root names => exact path_persists hr root names
  case collection is t => exact (resolveAll_persists h hr is).bind fun _ => collection_persists h _ t
  case negative d      => exact (resolve_persists h hr d).bind fun _ => .refl _
  case arithmetic o l r t =>
    refine (Persists.refl _).bind fun _ => ?_
    refine (resolve_persists h hr l).bind fun x => (resolve_persists h hr r).bind fun y => ?_
    cases t
    case none => exact (arithmeticType_persists h x.type y.type).bind fun _ => .refl _
    case some => exact (requireType_persists h _).bind fun _ => .refl _
  case call f as =>
    exact ((h.requireFunction f).mapError _).bind fun f => resolveArguments_persists h hr f as
  case comparison o l r n =>
    refine (Persists.refl _).bind fun _ => hb.bind fun _ => ?_
    exact (resolve_persists h hr l).bind fun _ => (resolve_persists h hr r).bind fun _ => .refl _
  case between d l u n =>
    refine hb.bind fun _ => (resolve_persists h hr d).bind fun _ => ?_
    exact (resolve_persists h hr l).bind fun _ => (resolve_persists h hr u).bind fun _ => .refl _
  case member d is n =>
    refine hb.bind fun _ => (resolve_persists h hr d).bind fun _ => ?_
    exact (resolveAll_persists h hr is).bind fun _ => .refl _
  case isNull d n      => exact hb.bind fun _ => (resolve_persists h hr d).bind fun _ => .refl _
  case isEmpty d n     => exact hb.bind fun _ => (resolve_persists h hr d).bind fun _ => .refl _
  case compound c ps n => exact hb.bind fun _ => (resolveAll_persists h hr ps).bind fun _ => .refl _
  case truth d n       => exact hb.bind fun _ => (resolve_persists h hr d).bind fun _ => .refl _
  case not d           => exact (resolve_persists h hr d).bind fun _ => negation_persists h _

theorem resolveArguments_persists (h : r.Retains r') (hr : roots.Extends roots') (f : Function)
    (as : Document.Arguments) : Persists (as.resolve r roots f) (as.resolve r' roots' f) := by
  cases as <;> rw [Arguments.resolve, Arguments.resolve]
  case positional ds => exact (resolveAll_persists h hr ds).bind fun _ => .refl _
  case named ds      => exact (resolveNamed_persists h hr ds).bind fun _ => .refl _

theorem resolveAll_persists (h : r.Retains r') (hr : roots.Extends roots') (ds : List Document) :
    Persists (resolveAll r roots ds) (resolveAll r' roots' ds) := by
  cases ds <;> rw [resolveAll, resolveAll]
  case nil       => exact .refl _
  case cons d ds =>
    exact (resolve_persists h hr d).bind fun _ => (resolveAll_persists h hr ds).bind fun _ => .refl _

theorem resolveNamed_persists (h : r.Retains r') (hr : roots.Extends roots')
    (ds : List (String × Document)) : Persists (resolveNamed r roots ds) (resolveNamed r' roots' ds) := by
  cases ds
  case nil       => rw [resolveNamed, resolveNamed]; exact .refl _
  case cons d ds =>
    have ⟨name, d⟩ := d
    rw [resolveNamed, resolveNamed]
    exact (resolve_persists h hr d).bind fun _ => (resolveNamed_persists h hr ds).bind fun _ => .refl _

end

-- Whatever is done to the registry and whatever names get types as well, a document that resolves keeps what
-- it resolves to.
theorem resolve_extended {d : Document} {e : Expression} (h : d.resolve r roots = .ok e)
    (ops : List Registry.Operation) (hr : roots.Extends roots') : d.resolve (r.run ops) roots' = .ok e :=
  resolve_persists (r.run_retains ops) hr d e h

theorem resolve_extended_price :
    Priced.roots.Extends Priced.ordered ∧
      (Priced.registry.run Priced.additions).type? "Order" = some Priced.order ∧
      Priced.comparison.resolve Priced.registry Priced.roots = .ok Priced.compared ∧
      Priced.comparison.resolve (Priced.registry.run Priced.additions) Priced.ordered = .ok Priced.compared := by
  have hr : Priced.roots.Extends Priced.ordered := by
    intro name t ht
    have hn : "order" ≠ name := by rintro rfl; contradiction
    rw [Priced.ordered, Roots.type?, Roots.bind, Dictionary.find?_insert_of_ne _ hn]
    exact ht
  have hd : Priced.comparison.resolve Priced.registry Priced.roots = .ok Priced.compared := by
    with_unfolding_all rfl
  exact ⟨hr, by with_unfolding_all rfl, hd, resolve_extended hd Priced.additions hr⟩

end Document

end Trivalent
