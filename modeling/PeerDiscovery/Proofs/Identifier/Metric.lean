import PeerDiscovery.Identifier.Metric

/-!
# The order of ranks

Distances are ordered by their octets, and ranks by their distances with the unknown rank below them
all. Both are linear orders, so that a sort by rank is determined up to nodes of equal rank.
-/

namespace PeerDiscovery

namespace Distance

theorem compare_eq (a b : Distance) : compare a b = compare a.bytes b.bytes := rfl

instance : Std.TransOrd Distance where
  eq_swap := by
    intro a b
    rw [compare_eq, compare_eq]
    exact Std.OrientedCmp.eq_swap
  isLE_trans := by
    intro a b c first second
    rw [compare_eq] at first second ⊢
    exact Std.TransCmp.isLE_trans first second

instance : Std.LawfulEqOrd Distance where
  compare_self := by
    intro a
    rw [compare_eq]
    exact Std.ReflCmp.compare_self
  eq_of_compare := by
    intro a b same
    rw [compare_eq] at same
    exact ext (Std.LawfulEqOrd.eq_of_compare same)

end Distance

namespace Rank

theorem compare_known (a b : Distance) : compare (known a) (known b) = compare a b := rfl

instance : Std.TransOrd Rank where
  eq_swap := by
    intro a b
    cases a with
    | unknown =>
      cases b with
      | unknown => rfl
      | known b => rfl
    | known a =>
      cases b with
      | unknown => rfl
      | known b =>
        rw [compare_known, compare_known]
        exact Std.OrientedCmp.eq_swap
  isLE_trans := by
    intro a b c first second
    cases a with
    | unknown =>
      cases c with
      | unknown => rfl
      | known c => rfl
    | known a =>
      cases b with
      | unknown => cases first
      | known b =>
        cases c with
        | unknown => cases second
        | known c =>
          rw [compare_known] at first second ⊢
          exact Std.TransCmp.isLE_trans first second

instance : Std.LawfulEqOrd Rank where
  compare_self := by
    intro a
    cases a with
    | unknown => rfl
    | known a =>
      rw [compare_known]
      exact Std.ReflCmp.compare_self
  eq_of_compare := by
    intro a b same
    cases a with
    | unknown =>
      cases b with
      | unknown => rfl
      | known b => cases same
    | known a =>
      cases b with
      | unknown => cases same
      | known b =>
        rw [compare_known] at same
        rw [Std.LawfulEqOrd.eq_of_compare same]

/-- Of two ranks one comes no later than the other. -/
theorem isLE_total (a b : Rank) : ((compare a b).isLE || (compare b a).isLE) = true := by
  have swapped : compare b a = (compare a b).swap := Std.OrientedCmp.eq_swap
  rw [swapped]
  cases compare a b <;> rfl

theorem isLE_trans {a b c : Rank} (first : (compare a b).isLE = true)
    (second : (compare b c).isLE = true) : (compare a c).isLE = true :=
  Std.TransCmp.isLE_trans first second

theorem isLE_antisymm {a b : Rank} (first : (compare a b).isLE = true)
    (second : (compare b a).isLE = true) : a = b :=
  Std.LawfulEqOrd.eq_of_compare (Std.OrientedCmp.isLE_antisymm first second)

end Rank

end PeerDiscovery
