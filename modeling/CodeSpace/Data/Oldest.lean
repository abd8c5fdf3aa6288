import Mathlib.Data.List.Sort

namespace CodeSpace.Data

/-! The items of a list in the order of their times, ties in the list's own order. -/

variable {Item Time : Type*} [LinearOrder Time] {time : Item → Time} {items : List Item} {item : Item}
  {count : Nat}

def byTime (time : Item → Time) (items : List Item) : List Item :=
  items.insertionSort fun first second => time first ≤ time second

@[simp]
theorem length_byTime : (byTime time items).length = items.length := List.length_insertionSort _ _

@[simp]
theorem mem_byTime : item ∈ byTime time items ↔ item ∈ items := List.mem_insertionSort _

theorem byTime_perm (time : Item → Time) (items : List Item) : (byTime time items).Perm items :=
  List.perm_insertionSort _ _

theorem byTime_ordered (time : Item → Time) (items : List Item) :
    (byTime time items).Pairwise fun first second => time first ≤ time second := by
  have total : Std.Total fun first second : Item => time first ≤ time second :=
    ⟨fun first second => le_total (time first) (time second)⟩
  have transitive : IsTrans Item fun first second => time first ≤ time second :=
    ⟨fun _ _ _ earlier later => earlier.trans later⟩
  exact List.pairwise_insertionSort _ _

theorem length_drop_of_mem_take (early : item ∈ (byTime time items).take (items.length - count)) :
    ((byTime time items).drop (items.length - count)).length = count := by
  have positive := List.length_pos_of_mem early
  rw [List.length_take] at positive
  rw [List.length_drop, length_byTime]
  omega

theorem le_of_mem_take_drop {position : Nat} {other : Item}
    (early : item ∈ (byTime time items).take position)
    (late : other ∈ (byTime time items).drop position) : time item ≤ time other := by
  have ordered := byTime_ordered time items
  rw [← List.take_append_drop position (byTime time items), List.pairwise_append] at ordered
  exact ordered.2.2 item early other late

end CodeSpace.Data
