import Trivalent.Expression

/-!
# Nodes of expressions

An expression is a tree of nodes. What holds of a node whenever it holds of its children holds of every
expression, and what is known of all the nodes of an expression is known of those of its children.
-/

namespace Trivalent.Expression

-- The bodies of a function belong to its declaration. They are no children of the nodes that call it.
def children : Expression → List Expression
  | literal ..           => []
  | collection _ is      => is
  | path _               => []
  | signed _ e _         => [e]
  | arithmetic _ _ l r   => [l, r]
  | call _ _ as          => as.map (·.2)
  | comparison _ _ l r _ => [l, r]
  | between _ e l u _    => [e, l, u]
  | member _ e is _      => e :: is
  | isNull _ e _         => [e]
  | isEmpty _ e _        => [e]
  | compound _ _ ps _    => ps
  | truth _ e _          => [e]

theorem sizeOf_lt_of_mem_children {c e : Expression} (h : c ∈ e.children) : sizeOf c < sizeOf e := by
  have item {es : List Expression} (h : c ∈ es) := List.sizeOf_lt_of_mem h
  cases e <;> simp only [children, List.mem_cons, List.not_mem_nil, or_false, List.mem_map] at h
  case collection | compound => have := item h; simp; omega
  case call =>
    obtain ⟨⟨p, e⟩, ha, rfl⟩ := h
    have := List.sizeOf_lt_of_mem ha
    simp at this ⊢
    omega
  case member =>
    obtain rfl | h := h
    · simp; omega
    · have := item h; simp; omega
  case signed | isNull | isEmpty | truth => subst h; simp +arith
  case arithmetic | comparison => obtain rfl | rfl := h <;> simp +arith
  case between => obtain rfl | rfl | rfl := h <;> simp +arith

-- What holds of a node whenever it holds of its children.
theorem children_induction {P : Expression → Prop} (node : ∀ e, (∀ c ∈ e.children, P c) → P e)
    (e : Expression) : P e :=
  node e fun c hc => have := sizeOf_lt_of_mem_children hc; children_induction node c
termination_by sizeOf e

mutual

-- The root comes first.
def nodes : Expression → List Expression
  | literal t v          => [literal t v]
  | collection t is      => collection t is :: nodesOfAll is
  | path p               => [path p]
  | signed t e n         => signed t e n :: e.nodes
  | arithmetic t o l r   => arithmetic t o l r :: (l.nodes ++ r.nodes)
  | call t f as          => call t f as :: nodesOfArguments as
  | comparison t o l r n => comparison t o l r n :: (l.nodes ++ r.nodes)
  | between t e l u n    => between t e l u n :: (e.nodes ++ (l.nodes ++ u.nodes))
  | member t e is n      => member t e is n :: (e.nodes ++ nodesOfAll is)
  | isNull t e n         => isNull t e n :: e.nodes
  | isEmpty t e n        => isEmpty t e n :: e.nodes
  | compound t c ps n    => compound t c ps n :: nodesOfAll ps
  | truth t e n          => truth t e n :: e.nodes

def nodesOfAll : List Expression → List Expression
  | []      => []
  | e :: es => e.nodes ++ nodesOfAll es

def nodesOfArguments : List (Parameter × Expression) → List Expression
  | []           => []
  | (_, e) :: as => e.nodes ++ nodesOfArguments as

end

theorem nodesOfAll_eq_flatMap (es : List Expression) : nodesOfAll es = es.flatMap nodes := by
  induction es
  case nil         => rfl
  case cons _ _ hi => rw [nodesOfAll, hi, List.flatMap_cons]

theorem nodesOfArguments_eq_flatMap (as : List (Parameter × Expression)) :
    nodesOfArguments as = (as.map (·.2)).flatMap nodes := by
  induction as
  case nil         => rfl
  case cons _ _ hi => rw [nodesOfArguments, hi, List.map_cons, List.flatMap_cons]

-- Below a node are the nodes of its children.
theorem nodes_eq (e : Expression) : e.nodes = e :: e.children.flatMap nodes := by
  cases e <;> simp [nodes, children, nodesOfAll_eq_flatMap, nodesOfArguments_eq_flatMap]

variable {c n e : Expression}

theorem mem_nodes_self (e : Expression) : e ∈ e.nodes := by
  rw [nodes_eq]
  exact List.mem_cons_self

theorem mem_nodes_of_mem_children (hc : c ∈ e.children) (hn : n ∈ c.nodes) : n ∈ e.nodes := by
  rw [nodes_eq]
  exact List.mem_cons_of_mem _ (List.mem_flatMap_of_mem hc hn)

theorem forall_mem_nodes {P : Expression → Prop} :
    (∀ n ∈ e.nodes, P n) ↔ P e ∧ ∀ c ∈ e.children, ∀ n ∈ c.nodes, P n := by
  rw [nodes_eq, List.forall_mem_cons]
  simp only [List.mem_flatMap, forall_exists_index, and_imp]
  exact and_congr_right' ⟨fun h c hc n => h n c hc, fun h n c hc => h c hc n⟩

theorem mem_nodes_trans (hn : n ∈ e.nodes) (hm : m ∈ n.nodes) : m ∈ e.nodes := by
  induction e using children_induction
  case node e hi =>
    rw [nodes_eq, List.mem_cons, List.mem_flatMap] at hn
    cases hn
    case inl hn => exact hn ▸ hm
    case inr hn =>
      have ⟨c, hc, hn⟩ := hn
      exact mem_nodes_of_mem_children hc (hi c hc hn)

-- A recursion along the children that asks the same of every node.
theorem forall_mem_nodes_of_children {P Q : Expression → Prop}
    (h : ∀ e, P e ↔ Q e ∧ ∀ c ∈ e.children, P c) (e : Expression) : P e ↔ ∀ n ∈ e.nodes, Q n := by
  induction e using children_induction
  case node e hi =>
    rw [h, forall_mem_nodes]
    exact and_congr_right' (forall₂_congr hi)

end Trivalent.Expression
