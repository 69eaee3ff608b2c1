import ReleaseUpgrade.SemVer

/-!
# The order of versions is transitive

Each order on a part of a version compares keys one after the other, so it is transitive because the
orders of the keys are; and so is the order of versions.
-/

namespace ReleaseUpgrade.SemVer

open Std

/-- the rank of an identifier: numeric ones come first -/
def rank (s : String) : Nat := if isNumeric s.toList then 0 else 1

/-- the value and the length of a numeric identifier -/
def value (s : String) : Nat := if isNumeric s.toList then numberOf s.toList else 0

def width (s : String) : Nat := if isNumeric s.toList then s.length else 0

/-- the text of an identifier that is not numeric -/
def letters (s : String) : String := if isNumeric s.toList then "" else s

theorem identifierOrder_eq :
    identifierOrder = compareLex (compareOn rank)
      (compareLex (compareOn value) (compareLex (compareOn width) (compareOn letters))) := by
  funext a b
  unfold identifierOrder compareLex compareOn rank value width letters
  cases isNumeric a.toList with
  | true =>
    cases isNumeric b.toList with
    | true => simp
    | false => rfl
  | false =>
    cases isNumeric b.toList with
    | true => rfl
    | false => simp

instance : TransCmp identifierOrder := by
  rw [identifierOrder_eq]
  infer_instance

theorem identifiersOrder_eq : identifiersOrder = List.compareLex identifierOrder := by
  funext as bs
  induction as generalizing bs with
  | nil => cases bs <;> rfl
  | cons a as ih =>
    cases bs with
    | nil => rfl
    | cons b bs =>
      rw [identifiersOrder, List.compareLex_cons_cons, ih]

instance : TransCmp identifiersOrder := by
  rw [identifiersOrder_eq]
  infer_instance

theorem preOrder_eq :
    preOrder = compareLex (compareOn fun ids : List String => if ids.isEmpty then 1 else 0)
      identifiersOrder := by
  funext as bs
  cases as <;> cases bs <;> rfl

instance : TransCmp preOrder := by
  rw [preOrder_eq]
  infer_instance

theorem transCmp_on {α β : Type} {cmp : β → β → Ordering} [TransCmp cmp] (key : α → β) :
    TransCmp fun a b => cmp (key a) (key b) where
  eq_swap := OrientedCmp.eq_swap
  isLE_trans := TransCmp.isLE_trans

theorem order_eq :
    order = compareLex (compareOn major) (compareLex (compareOn minor)
      (compareLex (compareOn patch) (compareLex (fun v w => preOrder v.pre w.pre)
        fun v w => identifiersOrder v.build w.build))) := rfl

instance : TransCmp order := by
  have hpre : TransCmp fun v w : SemVer => preOrder v.pre w.pre := transCmp_on pre
  have hbuild : TransCmp fun v w : SemVer => identifiersOrder v.build w.build := transCmp_on build
  rw [order_eq]
  infer_instance

theorem order_trans {u v w : SemVer} (huv : u.order v = .gt) (hvw : v.order w = .gt) :
    u.order w = .gt :=
  TransCmp.gt_trans huv hvw

end ReleaseUpgrade.SemVer
