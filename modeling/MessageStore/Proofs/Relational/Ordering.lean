import MessageStore.Proofs.Relational.Comparisons
import MessageStore.Relational.Query

/-!
# Cells in order

The order of cells is total, whatever the classes of the cells: integers and reals
are told apart by nothing but their values, and everything else by its class first.
So rows can be put in order by any columns.
-/

namespace MessageStore

/-! ## Values of the 64-bit format -/

namespace Binary64

theorem transCmp_dyadic : Std.TransCmp fun x y : Dyadic => compareOfLessAndEq x y :=
  Std.TransOrd.compareOfLessAndEq_of_antisymm_of_trans_of_total_of_not_le Dyadic.le_antisymm
    Dyadic.le_trans Dyadic.le_total Dyadic.not_lt

/-! An infinity is at an end, so that only what is finite has to be compared. -/

instance : Std.OrientedCmp order where
  eq_swap {x y} := by
    rcases x with x | (_ | _) <;> rcases y with y | (_ | _)
    case finite.finite => exact transCmp_dyadic.eq_swap
    all_goals rfl

instance : Std.TransCmp order where
  isLE_trans {x y z} before behind := by
    rcases x with x | (_ | _) <;> rcases y with y | (_ | _) <;> rcases z with z | (_ | _)
    case finite.finite.finite => exact transCmp_dyadic.isLE_trans before behind
    all_goals first | rfl | exact absurd before Bool.false_ne_true |
      exact absurd behind Bool.false_ne_true

/-- Integers are ordered as the values that they are compared by. -/
theorem order_exact (x y : Int) : order (exact x) (exact y) = Relational.Cell.orderInt x y := by
  have less : (x : Dyadic) < (y : Dyadic) ↔ x < y := by
    rw [← Dyadic.toRat_lt_toRat_iff, Dyadic.toRat_intCast, Dyadic.toRat_intCast,
      Rat.intCast_lt_intCast]
  have same : (x : Dyadic) = (y : Dyadic) ↔ x = y := by
    rw [← Dyadic.toRat_inj, Dyadic.toRat_intCast, Dyadic.toRat_intCast, Rat.intCast_inj]
  change (if (x : Dyadic) < (y : Dyadic) then _ else if (x : Dyadic) = (y : Dyadic) then _
    else _) = _
  simp only [less, same]
  rfl

end Binary64

namespace Relational

/-! ## Cells -/

namespace Cell

theorem orderBytes_eq_compareLex (first second : List UInt8) :
    orderBytes first second = first.compareLex compare second := by
  induction first generalizing second with
  | nil => cases second <;> rfl
  | cons x xs ih =>
      cases second with
      | nil => rfl
      | cons y ys =>
          rw [orderBytes, List.compareLex_cons_cons, ih]
          change _ = (compareOfLessAndEq x y).then _
          unfold compareOfLessAndEq
          split
          · rfl
          · split <;> rfl

/-- A cell with a real in the place of an integer. -/
def asReal : Cell → Cell
  | .integer value => .real (.exact value.toInt)
  | cell => cell

/-- Integers and reals are told apart by their values only. -/
theorem order_asReal (first second : Cell) :
    order first.asReal second.asReal = order first second := by
  cases first <;> cases second
  case integer.integer => exact Binary64.order_exact _ _
  all_goals rfl

theorem asReal_ne_integer (cell : Cell) (value : Int64) : cell.asReal ≠ .integer value := by
  cases cell <;> nofun

instance : Std.OrientedCmp order where
  eq_swap {first second} := by
    rw [← order_asReal first second, ← order_asReal second first]
    cases left : first.asReal <;> cases right : second.asReal
    case real.real x y => exact @Std.OrientedCmp.eq_swap _ Binary64.order _ x y
    case text.text x y => exact @Std.OrientedCmp.eq_swap _ (compare : String → _) _ x y
    case blob.blob x y =>
      simp only [order, orderBytes_eq_compareLex]
      exact Std.OrientedCmp.eq_swap
    all_goals first | rfl | exact absurd left (first.asReal_ne_integer _) |
      exact absurd right (second.asReal_ne_integer _)

instance : Std.TransCmp order where
  isLE_trans {first second third} before behind := by
    rw [← order_asReal] at before behind ⊢
    revert before behind
    cases left : first.asReal <;> cases middle : second.asReal <;> cases right : third.asReal
    case real.real.real x y z => exact @Std.TransCmp.isLE_trans _ Binary64.order _ x y z
    case text.text.text x y z => exact @Std.TransCmp.isLE_trans _ (compare : String → _) _ x y z
    case blob.blob.blob x y z =>
      simp only [order, orderBytes_eq_compareLex]
      exact Std.TransCmp.isLE_trans
    all_goals intro before behind
    all_goals first | rfl | exact absurd before Bool.false_ne_true |
      exact absurd behind Bool.false_ne_true |
      exact absurd left (first.asReal_ne_integer _) |
      exact absurd middle (second.asReal_ne_integer _) |
      exact absurd right (third.asReal_ne_integer _)

theorem orderKeys_eq_compareLex (first second : List Cell) :
    orderKeys first second = first.compareLex order second := by
  induction first generalizing second with
  | nil => cases second <;> rfl
  | cons x xs ih =>
      cases second with
      | nil => rfl
      | cons y ys => rw [orderKeys, List.compareLex_cons_cons, ih]

instance : Std.TransCmp orderKeys := by
  have same : orderKeys = List.compareLex order :=
    funext fun first => funext (orderKeys_eq_compareLex first)
  rw [same]
  infer_instance

end Cell

/-! ## Rows -/

section Rows

variable (table : Table) (names : List String)

theorem Query.precedes_eq_isLE (first second : Row) :
    precedes table names first second =
      (Cell.orderKeys ((project table names first).map Prod.snd)
        ((project table names second).map Prod.snd)).isLE := by
  unfold precedes
  cases Cell.orderKeys _ _ <;> rfl

theorem Query.precedes_trans (first second third : Row)
    (earlier : precedes table names first second) (later : precedes table names second third) :
    precedes table names first third := by
  rw [precedes_eq_isLE] at *
  exact Std.TransCmp.isLE_trans earlier later

theorem Query.precedes_total (first second : Row) :
    precedes table names first second || precedes table names second first := by
  rw [precedes_eq_isLE, precedes_eq_isLE, Bool.or_eq_true]
  rw [@Std.OrientedCmp.eq_swap _ Cell.orderKeys]
  cases Cell.orderKeys _ _ <;> simp

end Rows

end Relational

end MessageStore
