import Trivalent.Expression

/-!
# Equality of expressions

Expressions are the same if they are built alike from the same types, attributes, functions and
values. Functions are the same if they have one name.
-/

namespace Trivalent

-- Parameters are the same if they have one name and one position.
def Parameter.same (p q : Parameter) : Bool :=
  p.position == q.position && p.name == q.name

def Function.same (f g : Function) : Bool :=
  f.name == g.name

def Path.same (p q : Path) : Bool :=
  p.type.same q.type && p.root == q.root && p.attributes.length == q.attributes.length &&
    (p.attributes.zip q.attributes).all fun pair => pair.1.same pair.2

namespace Expression

mutual

def same : Expression → Expression → Bool
  | literal t v, literal t' v' =>
    t.same t' && v.same v'
  | collection t is, collection t' is' =>
    t.same t' && sameItems is is'
  | path p, path p' =>
    p.same p'
  | signed t e n, signed t' e' n' =>
    t.same t' && e.same e' && n == n'
  | arithmetic t o l r, arithmetic t' o' l' r' =>
    t.same t' && o == o' && l.same l' && r.same r'
  | call t f as, call t' f' as' =>
    t.same t' && f.same f' && sameArguments as as'
  | comparison t o l r n, comparison t' o' l' r' n' =>
    t.same t' && o == o' && l.same l' && r.same r' && n == n'
  | between t e l u n, between t' e' l' u' n' =>
    t.same t' && e.same e' && l.same l' && u.same u' && n == n'
  | member t e is n, member t' e' is' n' =>
    t.same t' && e.same e' && sameItems is is' && n == n'
  | isNull t e n, isNull t' e' n' =>
    t.same t' && e.same e' && n == n'
  | isEmpty t e n, isEmpty t' e' n' =>
    t.same t' && e.same e' && n == n'
  | compound t c ps n, compound t' c' ps' n' =>
    t.same t' && c == c' && sameItems ps ps' && n == n'
  | truth t e n, truth t' e' n' =>
    t.same t' && e.same e' && n == n'
  | _, _ => false

def sameItems : List Expression → List Expression → Bool
  | [], []           => true
  | e :: es, f :: fs => e.same f && sameItems es fs
  | _, _             => false

def sameArguments : List (Parameter × Expression) → List (Parameter × Expression) → Bool
  | [], []                     => true
  | (p, e) :: as, (q, f) :: bs => p.same q && e.same f && sameArguments as bs
  | _, _                       => false

end

end Expression

end Trivalent
