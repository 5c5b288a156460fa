import Trivalent.Evaluation

/-!
# Contexts

A frame is a node with a hole in the place of one of its children, and a context is a list of frames,
each of which stands in the hole of the one before it. An expression fills the hole of a context. On
the side of meanings, an operand does.
-/

namespace Trivalent

inductive Frame
  | item            (type : DataType) (before after : List Expression)
  | signed          (type : DataType) (negative : Bool)
  | arithmeticLeft  (type : DataType) (operator : Arithmetic) (right : Expression)
  | arithmeticRight (type : DataType) (operator : Arithmetic) (left : Expression)
  | argument        (type : DataType) (function : Function)
                    (before : List (Parameter × Expression)) (parameter : Parameter)
                    (after : List (Parameter × Expression))
  | comparisonLeft  (type : DataType) (operator : Comparison) (right : Expression) (negated : Bool)
  | comparisonRight (type : DataType) (operator : Comparison) (left : Expression) (negated : Bool)
  | betweenOperand  (type : DataType) (lower upper : Expression) (negated : Bool)
  | betweenLower    (type : DataType) (operand upper : Expression) (negated : Bool)
  | betweenUpper    (type : DataType) (operand lower : Expression) (negated : Bool)
  | memberOperand   (type : DataType) (items : List Expression) (negated : Bool)
  | memberItem      (type : DataType) (operand : Expression) (before after : List Expression)
                    (negated : Bool)
  | isNull          (type : DataType) (negated : Bool)
  | isEmpty         (type : DataType) (negated : Bool)
  | predicate       (type : DataType) (connective : Connective) (before after : List Expression)
                    (negated : Bool)
  | truth           (type : DataType) (negated : Bool)

abbrev Context := List Frame

namespace Expression

-- The recursion of `meaning` through lists of children is a map.
theorem operands_eq_map (host : Host) (roots : Roots) (es : List Expression) :
    operands host roots es = es.map (operand host roots) := by
  induction es
  case nil         => rfl
  case cons _ _ hi => simp [operands, operand, hi]

theorem argumentOperands_eq_map
    (host : Host) (roots : Roots) (as : List (Parameter × Expression)) :
    argumentOperands host roots as = as.map fun a => (a.1, a.2.operand host roots) := by
  induction as
  case nil           => rfl
  case cons a _ hi => simp [argumentOperands, operand, hi]

theorem evaluations_eq_map (host : Host) (roots : Roots) (es : List Expression) :
    evaluations host roots es = es.map (evaluate host roots) := by
  induction es
  case nil         => rfl
  case cons _ _ hi => simp [evaluations, evaluate, operand, hi]

end Expression

open Evaluation

namespace Frame

def fill : Frame → Expression → Expression
  | item t bs as, e                => .collection t (bs ++ e :: as)
  | signed t n, e                  => .signed t e n
  | arithmeticLeft t o r, e        => .arithmetic t o e r
  | arithmeticRight t o l, e       => .arithmetic t o l e
  | argument t f bs p as, e        => .call t f (bs ++ (p, e) :: as)
  | comparisonLeft t o r n, e      => .comparison t o e r n
  | comparisonRight t o l n, e     => .comparison t o l e n
  | betweenOperand t l u n, e      => .between t e l u n
  | betweenLower t o u n, e        => .between t o e u n
  | betweenUpper t o l n, e        => .between t o l e n
  | memberOperand t is n, e        => .member t e is n
  | memberItem t o bs as n, e      => .member t o (bs ++ e :: as) n
  | isNull t n, e                  => .isNull t e n
  | isEmpty t n, e                 => .isEmpty t e n
  | predicate t c bs as n, e       => .compound t c (bs ++ e :: as) n
  | truth t n, e                   => .truth t e n

-- The declared type of the node, whatever fills the hole.
def type : Frame → DataType
  | item t ..            => t
  | signed t ..          => t
  | arithmeticLeft t ..  => t
  | arithmeticRight t .. => t
  | argument t ..        => t
  | comparisonLeft t ..  => t
  | comparisonRight t .. => t
  | betweenOperand t ..  => t
  | betweenLower t ..    => t
  | betweenUpper t ..    => t
  | memberOperand t ..   => t
  | memberItem t ..      => t
  | isNull t ..          => t
  | isEmpty t ..         => t
  | predicate t ..       => t
  | truth t ..           => t

-- Nodes that are null if they come to a child that is null. All others have a value for nulls.
def AbsorbsNull : Frame → Prop
  | item ..     => False
  | argument .. => False
  | isNull ..   => False
  | _           => True

variable (host : Host) (roots : Roots)

-- The meaning of the node when an operand fills the hole.
def run : Frame → Operand → Action Evaluated
  | item _ bs as, o => do
    return .plain (.collection (← items (bs.map (·.operand host roots) ++
      o :: as.map (·.operand host roots))))
  | signed t n, o => .plain <$> Evaluation.signed host t o n
  | arithmeticLeft t op r, o => .plain <$> arithmetic host t op o (r.operand host roots)
  | arithmeticRight t op l, o => .plain <$> arithmetic host t op (l.operand host roots) o
  | argument _ f bs p as, o =>
    call host roots f (bs.map (fun a => (a.1, a.2.operand host roots)) ++
      (p, o) :: as.map (fun a => (a.1, a.2.operand host roots))) (Expression.bodies host roots f)
  | comparisonLeft _ op r n, o => .ofTruth <$> comparison host op o (r.operand host roots) n
  | comparisonRight _ op l n, o => .ofTruth <$> comparison host op (l.operand host roots) o n
  | betweenOperand _ l u n, o =>
    .ofTruth <$> between host o (l.operand host roots) (u.operand host roots) n
  | betweenLower _ e u n, o =>
    .ofTruth <$> between host (e.operand host roots) o (u.operand host roots) n
  | betweenUpper _ e l n, o =>
    .ofTruth <$> between host (e.operand host roots) (l.operand host roots) o n
  | memberOperand _ is n, o => .ofTruth <$> member host o (is.map (·.operand host roots)) n
  | memberItem _ e bs as n, o =>
    .ofTruth <$> member host (e.operand host roots)
      (bs.map (·.operand host roots) ++ o :: as.map (·.operand host roots)) n
  | isNull _ n, o => .plain <$> Evaluation.isNull o n
  | isEmpty _ n, o => .plain <$> Evaluation.isEmpty o n
  | predicate _ c bs as n, o =>
    (fun t => .ofTruth (t.map (· != n))) <$> compound c.identity
      (bs.map (·.operand host roots) ++ o :: as.map (·.operand host roots))
  | truth _ n, o => (fun t => .ofTruth (t.map (· != n))) <$> Evaluation.truth o

theorem type_fill (F : Frame) (e : Expression) : (F.fill e).type = F.type := by
  cases F <;> rfl

theorem meaning_fill (F : Frame) (e : Expression) :
    (F.fill e).meaning host roots = F.run host roots (e.operand host roots) := by
  cases F <;> simp only [fill, run, Expression.meaning, Expression.operands_eq_map,
    Expression.argumentOperands_eq_map, List.map_append, List.map_cons] <;> rfl

end Frame

namespace Context

-- The first frame is the root.
def fill : Context → Expression → Expression
  | [], e     => e
  | F :: C, e => F.fill (fill C e)

def run (host : Host) (roots : Roots) : Context → Operand → Operand
  | [], o     => o
  | F :: C, o => ⟨F.type, F.run host roots (run host roots C o)⟩

-- The declared type of what fills the context is that of its root. Only the empty context leaves it
-- to its hole.
def type : Context → DataType → DataType
  | [], t     => t
  | F :: _, _ => F.type

theorem run_eq (host : Host) (roots : Roots) (C : Context) (o : Operand) :
    C.run host roots o = ⟨C.type o.type, (C.run host roots o).action⟩ := by
  cases C <;> rfl

theorem operand_fill (host : Host) (roots : Roots) (C : Context) (e : Expression) :
    (C.fill e).operand host roots = C.run host roots (e.operand host roots) := by
  induction C
  case nil => rfl
  case cons F C hi =>
    simp only [fill, run, ← hi]
    simp only [Expression.operand, Frame.type_fill, Frame.meaning_fill]

end Context

end Trivalent
