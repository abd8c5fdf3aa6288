import Mathlib.Data.List.Forall2

namespace CodeSpace.Data

/-! Lists that correspond member by member, and counting the members of a list that satisfy a test,
across a change of the list or the test. -/

variable {Item Other : Type*} {Related : Item → Other → Prop} {item : Item} {items : List Item}
  {others : List Other} {index : Nat} {test : Item → Bool}

theorem exists_related (related : List.Forall₂ Related items others) (isItem : item ∈ items) :
    ∃ other ∈ others, Related item other := by
  induction related with
  | nil => cases isItem
  | @cons first other _ _ head _ ih =>
      rcases List.mem_cons.mp isItem with rfl | later
      · exact ⟨other, List.mem_cons_self, head⟩
      · obtain ⟨found, isFound, corresponds⟩ := ih later
        exact ⟨found, List.mem_cons_of_mem _ isFound, corresponds⟩

theorem countP_le_of_forall₂ {before : Item → Bool}
    {after : Other → Bool} (related : List.Forall₂ Related items others)
    (kept : ∀ item other, Related item other → after other = true → before item = true) :
    others.countP after ≤ items.countP before := by
  induction related with
  | nil => simp
  | @cons item other items others head _ ih =>
      rw [List.countP_cons, List.countP_cons]
      by_cases counted : after other = true
      · rw [if_pos counted, if_pos (kept item other head counted)]
        omega
      · rw [if_neg counted]
        omega

theorem countP_le_add {total left right : Item → Bool}
    (covered : ∀ item ∈ items, total item = true → left item = true ∨ right item = true) :
    items.countP total ≤ items.countP left + items.countP right := by
  induction items with
  | nil => simp
  | cons head _ ih =>
      have smaller := ih fun item member => covered item (by simp [member])
      have here := covered head (by simp)
      simp only [List.countP_cons]
      by_cases counted : total head = true
      · rcases here counted with isLeft | isRight
        · simp only [counted, isLeft, if_true]
          omega
        · simp only [counted, isRight, if_true]
          omega
      · simp only [counted, Bool.false_eq_true, if_false]
        omega

theorem forall₂_set {Related : Item → Item → Prop} (refl : ∀ item, Related item item)
    {replacement : Item} (stored : items[index]? = some item) (related : Related item replacement) :
    List.Forall₂ Related items (items.set index replacement) := by
  induction items generalizing index with
  | nil => simp at stored
  | cons head _ ih =>
      cases index with
      | zero =>
          have same : head = item := by simpa using stored
          subst same
          exact .cons related (List.forall₂_same.mpr fun other _ => refl other)
      | succ => exact .cons (refl head) (ih (by simpa using stored))

theorem exists_of_mem_right {other : Other}
    (related : List.Forall₂ Related items others) (member : other ∈ others) :
    ∃ item ∈ items, Related item other := by
  induction related with
  | nil => simp at member
  | cons head _ ih =>
      rcases List.mem_cons.mp member with rfl | later
      · exact ⟨_, by simp, head⟩
      · obtain ⟨item, inside, holds⟩ := ih later
        exact ⟨item, by simp [inside], holds⟩

theorem index_eq_of_countP_le_one {left right : Nat}
    {first second : Item} (single : items.countP test ≤ 1) (atLeft : items[left]? = some first)
    (atRight : items[right]? = some second) (firstCounts : test first = true)
    (secondCounts : test second = true) : left = right := by
  induction items generalizing left right with
  | nil => simp at atLeft
  | cons head rest ih =>
      have later : ∀ {index : Nat} {item : Item}, rest[index]? = some item → test item = true →
          0 < rest.countP test := by
        intro index item stored counts
        exact List.countP_pos_iff.mpr ⟨item, List.mem_of_getElem? stored, counts⟩
      rw [List.countP_cons] at single
      cases left with
      | zero =>
          cases right with
          | zero => rfl
          | succ =>
              have same : head = first := by simpa using atLeft
              have more := later (by simpa using atRight) secondCounts
              rw [same, if_pos firstCounts] at single
              omega
      | succ =>
          cases right with
          | zero =>
              have same : head = second := by simpa using atRight
              have more := later (by simpa using atLeft) firstCounts
              rw [same, if_pos secondCounts] at single
              omega
          | succ =>
              have equal := ih (by omega) (by simpa using atLeft) (by simpa using atRight)
              rw [equal]

theorem countP_set_of_counted
    (replacement : Item) (stored : items[index]? = some item) (counts : test item = true)
    (gone : test replacement = false) :
    (items.set index replacement).countP test + 1 = items.countP test := by
  obtain ⟨inside, same⟩ := List.getElem?_eq_some_iff.mp stored
  have positive : 0 < items.countP test :=
    List.countP_pos_iff.mpr ⟨item, List.mem_of_getElem? stored, counts⟩
  rw [List.countP_set inside, same, if_pos counts, gone]
  simp only [Bool.false_eq_true, if_false]
  omega

theorem getElem?_set_cases {next : Item} {other : Nat}
    (found : (items.set index next)[other]? = some item) :
    other = index ∧ item = next ∨ other ≠ index ∧ items[other]? = some item := by
  rw [List.getElem?_set] at found
  split at found
  next same =>
    rw [Option.ite_none_right_eq_some] at found
    exact .inl ⟨same.symm, (Option.some.inj found.2).symm⟩
  next apart => exact .inr ⟨Ne.symm apart, found⟩

theorem getElem?_concat_cases {last : Item} (found : (items ++ [last])[index]? = some item) :
    items[index]? = some item ∨ index = items.length ∧ item = last := by
  rw [List.getElem?_append] at found
  split at found
  · exact .inl found
  · have bound := (List.getElem?_eq_some_iff.mp found).1
    rw [List.length_singleton] at bound
    have same : index = items.length := by omega
    rw [same, Nat.sub_self] at found
    exact .inr ⟨same, (Option.some.inj found).symm⟩

theorem getElem?_concat_of_some (last : Item)
    (found : items[index]? = some item) : (items ++ [last])[index]? = some item := by
  rw [List.getElem?_append_left (List.getElem?_eq_some_iff.mp found).1, found]

theorem getElem?_concat (items : List Item) (last : Item) (index : Nat) :
    (items ++ [last])[index]? = if index = items.length then some last else items[index]? := by
  split
  next same => rw [same, List.getElem?_concat_length]
  · by_cases inside : index < items.length
    · exact List.getElem?_append_left inside
    · rw [List.getElem?_eq_none (by simp; omega), List.getElem?_eq_none (by omega)]

end CodeSpace.Data
