import Trivalent.Proofs.Action.Course
import Trivalent.Proofs.Context

/-!
# The course of a context

From every store a context either skips its hole or runs what fills it once. If a null comes out of the
hole of a node that absorbs nulls, the node has no more to do than to be null.
-/

namespace Trivalent

open Trivalent.Action (Course)

-- What goes on with a value ends at once with `missing` if this value is null.
def Absorbs (missing : α) (rest : Evaluated → Action α) : Prop :=
  ∀ p, rest ⟨.null, p⟩ = pure missing

namespace Absorbs

variable {f : Action Evaluated → Action α}

-- The value in the hole is the first thing that is asked for.
theorem course_bind {k : Evaluated → Action α} (h : Absorbs missing k) :
    Course (Absorbs missing) fun x => x >>= k := by
  refine Course.bind (Course.hole (P := (· = pure)) rfl) k ?_
  rintro _ rfl
  simpa using h

theorem bind {k : α → Action β} (h : Course (Absorbs missing) f) (hk : k missing = pure last) :
    Course (Absorbs last) fun x => f x >>= k := by
  refine h.bind k fun rest hr p => ?_
  simp [hr p, hk]

theorem map (g : α → β) (h : Course (Absorbs missing) f) :
    Course (Absorbs (g missing)) fun x => g <$> f x := by
  simp only [map_eq_pure_bind]
  exact bind h rfl

end Absorbs

namespace Evaluation

variable {host : Host} {roots : Roots} {t : DataType} {P : (Evaluated → Action α) → Prop}

theorem value_bind (t : DataType) (x : Action Evaluated) (k : Value → Action α) :
    (Operand.mk t x).value >>= k = x >>= fun e => k e.value := by
  simp [Operand.value]

theorem unlessNull_hole (missing : α) (f : Value → Action α) :
    Course (Absorbs missing) fun x => unlessNull ⟨t, x⟩ missing f := by
  simp only [unlessNull, value_bind]
  exact Absorbs.course_bind fun _ => rfl

theorem unlessNull_after (o : Operand) (missing : α) {f : Value → Action Evaluated → Action α}
    (h : ∀ v, Course P (f v)) : Course P fun x => unlessNull o missing (f · x) := by
  refine Course.after o.value fun v => ?_
  split
  · exact Course.const _
  · exact h v

theorem truth_hole : Course (Absorbs none) fun x => truth ⟨t, x⟩ := by
  simp only [truth, value_bind]
  exact Absorbs.course_bind fun _ => rfl

theorem isNull_hole (negated : Bool) :
    Course (fun _ => True) fun x => Evaluated.plain <$> isNull ⟨t, x⟩ negated := by
  simp only [isNull, value_bind, map_eq_pure_bind, bind_assoc]
  exact (Course.hole (P := fun _ => True) trivial).bind _ fun _ _ => trivial

theorem isEmpty_hole (negated : Bool) :
    Course (Absorbs .null) fun x => isEmpty ⟨t, x⟩ negated := by
  simp only [isEmpty, value_bind]
  exact Absorbs.course_bind fun _ => rfl

theorem signed_hole (type : DataType) (negative : Bool) :
    Course (Absorbs .null) fun x => signed host type ⟨t, x⟩ negative :=
  unlessNull_hole Value.null _

theorem arithmeticLeft_hole (type : DataType) (o : Arithmetic) (right : Operand) :
    Course (Absorbs .null) fun x => arithmetic host type o ⟨t, x⟩ right := by
  simp only [arithmetic]
  exact unlessNull_hole Value.null _

theorem arithmeticRight_hole (type : DataType) (o : Arithmetic) (left : Operand) :
    Course (Absorbs .null) fun x => arithmetic host type o left ⟨t, x⟩ := by
  simp only [arithmetic]
  exact unlessNull_after left Value.null fun _ => unlessNull_hole Value.null _

theorem comparisonLeft_hole (o : Comparison) (right : Operand) (negated : Bool) :
    Course (Absorbs none) fun x => comparison host o ⟨t, x⟩ right negated := by
  simp only [comparison]
  exact unlessNull_hole none _

theorem comparisonRight_hole (o : Comparison) (left : Operand) (negated : Bool) :
    Course (Absorbs none) fun x => comparison host o left ⟨t, x⟩ negated := by
  simp only [comparison]
  exact unlessNull_after left none fun _ => unlessNull_hole none _

theorem betweenOperand_hole (lower upper : Operand) (negated : Bool) :
    Course (Absorbs none) fun x => between host ⟨t, x⟩ lower upper negated := by
  simp only [between]
  exact unlessNull_hole none _

theorem betweenLower_hole (operand upper : Operand) (negated : Bool) :
    Course (Absorbs none) fun x => between host operand ⟨t, x⟩ upper negated := by
  simp only [between]
  exact unlessNull_after operand none fun _ => unlessNull_hole none _

-- The lower bound decides whether the upper one is asked for.
theorem betweenUpper_hole (operand lower : Operand) (negated : Bool) :
    Course (Absorbs none) fun x => between host operand lower ⟨t, x⟩ negated := by
  refine unlessNull_after operand none fun v => unlessNull_after lower none fun l => ?_
  refine Course.after (compare host operand.type lower.type v l .greaterOrEqual) fun r => ?_
  cases r
  case none => exact Course.const _
  case some r =>
    by_cases hr : r = negated
    case pos => simpa [hr] using Course.const _
    case neg => simpa [hr] using unlessNull_hole none _

theorem memberOperand_hole (items : List Operand) (negated : Bool) :
    Course (Absorbs none) fun x => member host ⟨t, x⟩ items negated := by
  simp only [member]
  exact unlessNull_hole none _

theorem compound_hole (identity : Bool) (bs as : List Operand) :
    Course (Absorbs none) fun x => compound identity (bs ++ ⟨t, x⟩ :: as) := by
  induction bs
  case nil => exact Absorbs.bind truth_hole rfl
  case cons b _ hi =>
    refine Course.after (truth b) fun r => ?_
    cases r
    case none => exact Course.const _
    case some r =>
      by_cases hr : r = identity
      case pos => simpa [hr] using hi
      case neg => simpa [hr] using Course.const _

theorem memberOf_hole (type : DataType) (v : Value) (negated : Bool) (bs as : List Operand) :
    Course (Absorbs none) fun x => memberOf host type v negated (bs ++ ⟨t, x⟩ :: as) := by
  induction bs
  case nil =>
    simp only [List.nil_append, memberOf]
    exact unlessNull_hole none _
  case cons b _ hi =>
    refine unlessNull_after b none fun w => ?_
    refine Course.after (compare host type b.type v w .equal) fun r => ?_
    cases r
    case none => exact Course.const _
    case some r =>
      by_cases hr : r = negated
      case pos => simpa [hr] using hi
      case neg => simpa [hr] using Course.const _

theorem memberItem_hole (operand : Operand) (bs as : List Operand) (negated : Bool) :
    Course (Absorbs none) fun x => member host operand (bs ++ ⟨t, x⟩ :: as) negated :=
  unlessNull_after operand none fun v => memberOf_hole operand.type v negated bs as

theorem items_hole (bs as : List Operand) :
    Course (fun _ => True) fun x => items (bs ++ ⟨t, x⟩ :: as) := by
  induction bs
  case nil =>
    simp only [List.nil_append, items, value_bind]
    exact (Course.hole (P := fun _ => True) trivial).bind _ fun _ _ => trivial
  case cons b _ hi => exact Course.after b.value fun v => hi.bind _ fun _ _ => trivial

theorem arguments_hole (p : Parameter) (given : Arguments) (bs as : List (Parameter × Operand)) :
    Course (fun _ => True) fun x => arguments host roots given (bs ++ (p, ⟨t, x⟩) :: as) := by
  induction bs generalizing given
  case nil =>
    have hc : Course (fun _ => True) fun x => argument host roots p ⟨t, x⟩ :=
      (Course.hole (P := fun _ => True) trivial).bind _ fun _ _ => trivial
    exact hc.bind _ fun _ _ => trivial
  case cons b _ hi => exact Course.after (argument host roots b.1 b.2) fun v => hi (given.insert b.1 v)

theorem call_hole (f : Function) (p : Parameter) (bs as : List (Parameter × Operand))
    (bodies : List (Action Value)) :
    Course (fun _ => True) fun x => call host roots f (bs ++ (p, ⟨t, x⟩) :: as) bodies := by
  simp only [call]
  cases f.invoker
  case none   => exact Course.const _
  case some i => exact (arguments_hole p .empty bs as).bind _ fun _ _ => trivial

end Evaluation

open Evaluation

variable (host : Host) (roots : Roots)

theorem Frame.course (F : Frame) (t : DataType) :
    Course (fun rest => F.AbsorbsNull → Absorbs (.plain .null) rest)
      fun x => F.run host roots ⟨t, x⟩ := by
  have absorbing {f : Action Evaluated → Action Evaluated} (h : Course (Absorbs (.plain .null)) f) :
      Course (fun rest => F.AbsorbsNull → Absorbs (.plain .null) rest) f :=
    h.mono fun _ hr _ => hr
  have free {f : Action Evaluated → Action Evaluated} (h : Course (fun _ => True) f)
      (hn : ¬F.AbsorbsNull) : Course (fun rest => F.AbsorbsNull → Absorbs (.plain .null) rest) f :=
    h.mono fun _ _ hf => absurd hf hn
  cases F
  case item bs as           => exact free ((items_hole _ _).bind _ fun _ _ => trivial) id
  case argument f bs p as   => exact free (call_hole f p _ _ _) id
  case isNull n             => exact free (isNull_hole n) id
  case signed n             => exact absorbing <| Absorbs.map Evaluated.plain (signed_hole _ n)
  case arithmeticLeft o r   => exact absorbing <| Absorbs.map Evaluated.plain (arithmeticLeft_hole _ o _)
  case arithmeticRight o l  => exact absorbing <| Absorbs.map Evaluated.plain (arithmeticRight_hole _ o _)
  case comparisonLeft o r n => exact absorbing <| Absorbs.map Evaluated.ofTruth (comparisonLeft_hole o _ n)
  case comparisonRight o l n =>
    exact absorbing <| Absorbs.map Evaluated.ofTruth (comparisonRight_hole o _ n)
  case betweenOperand l u n => exact absorbing <| Absorbs.map Evaluated.ofTruth (betweenOperand_hole _ _ n)
  case betweenLower e u n   => exact absorbing <| Absorbs.map Evaluated.ofTruth (betweenLower_hole _ _ n)
  case betweenUpper e l n   => exact absorbing <| Absorbs.map Evaluated.ofTruth (betweenUpper_hole _ _ n)
  case memberOperand is n   => exact absorbing <| Absorbs.map Evaluated.ofTruth (memberOperand_hole _ n)
  case memberItem e bs as n => exact absorbing <| Absorbs.map Evaluated.ofTruth (memberItem_hole _ _ _ n)
  case isEmpty n            => exact absorbing <| Absorbs.map Evaluated.plain (isEmpty_hole n)
  case predicate c bs as n  => exact absorbing <| Absorbs.map _ (compound_hole _ _ _)
  case truth n              => exact absorbing <| Absorbs.map _ truth_hole

namespace Context

-- A null that comes out of the hole comes out of the context, if all of its nodes absorb nulls. The
-- empty context leaves pending what is pending in its hole.
theorem course (C : Context) (t : DataType) :
    Course (fun rest => (∀ F ∈ C, F.AbsorbsNull) →
        ∀ p, rest ⟨.null, p⟩ = pure ⟨.null, if C.isEmpty then p else none⟩)
      fun x => (C.run host roots ⟨t, x⟩).action := by
  induction C
  case nil => exact Course.hole fun _ _ => rfl
  case cons F C hi =>
    have hF := F.course host roots (Context.type C t)
    have hc := hF.comp hi (R := fun rest => (∀ G ∈ F :: C, G.AbsorbsNull) →
      ∀ p, rest ⟨.null, p⟩ = pure ⟨.null, none⟩) ?comp
    case comp =>
      intro outer inner ho hi h p
      simp only [List.mem_cons, forall_eq_or_imp] at h
      simp only [hi h.2 p, pure_bind]
      exact ho h.1 _
    have hr (x : Action Evaluated) :
        F.run host roots (run host roots C ⟨t, x⟩) =
          F.run host roots ⟨Context.type C t, (run host roots C ⟨t, x⟩).action⟩ :=
      congrArg _ (run_eq ..)
    simpa [run, hr] using hc

end Context

end Trivalent
