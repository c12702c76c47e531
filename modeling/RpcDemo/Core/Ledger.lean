import Mathlib.Algebra.BigOperators.Group.Multiset.Basic
import Mathlib.Algebra.Order.BigOperators.Group.List
import Mathlib.Algebra.Order.BigOperators.Group.Multiset
import Mathlib.Algebra.Order.Group.Nat
import Mathlib.Tactic.Abel

/-!
# Totals and weights

The total of a measure over a list, and the weight of a bag of items.  A
counting invariant of a system with many components is an equation between
totals; a step replaces one component, or changes all of them in a way the
measure does not see.
-/

namespace RpcDemo.Ledger

section Total

variable {Item Amount : Type*} [AddCommMonoid Amount]

/-- The sum of a measure over the items of a list. -/
def total (measure : Item → Amount) (items : List Item) : Amount :=
  (items.map measure).sum

variable {measure : Item → Amount} {items : List Item}

@[simp]
theorem total_nil : total measure [] = 0 := rfl

@[simp]
theorem total_cons (item : Item) (items : List Item) :
    total measure (item :: items) = measure item + total measure items := by
  simp [total]

@[simp]
theorem total_append (left right : List Item) :
    total measure (left ++ right) = total measure left + total measure right := by
  simp [total]

/-- Replacing an item moves the total by the difference of the two measures. -/
theorem total_set {index : ℕ} {before : Item} (after : Item)
    (hget : items[index]? = some before) :
    total measure (items.set index after) + measure before =
      total measure items + measure after := by
  induction items generalizing index with
  | nil => simp at hget
  | cons item items ih =>
      cases index with
      | zero =>
          obtain rfl : item = before := by simpa using hget
          simp only [List.set_cons_zero, total_cons]
          abel
      | succ index =>
          have hrest := ih (by simpa using hget)
          simp only [List.set_cons_succ, total_cons, add_assoc, hrest]

@[simp]
theorem total_comp {Other : Type*} (change : Other → Item) (others : List Other) :
    total measure (others.map change) = total (fun other => measure (change other)) others := by
  simp [total, Function.comp_def]

@[simp]
theorem total_zero (items : List Item) : total (fun _ => (0 : Amount)) items = 0 := by
  simp [total]

theorem total_add (left right : Item → Amount) (items : List Item) :
    total (fun item => left item + right item) items = total left items + total right items := by
  induction items with
  | nil => simp
  | cons item items ih => simp [ih, add_add_add_comm]

theorem total_congr {other : Item → Amount} (heq : ∀ item ∈ items, measure item = other item) :
    total measure items = total other items := by
  rw [total, total, List.map_congr_left heq]

theorem total_eq_zero (hzero : ∀ item ∈ items, measure item = 0) : total measure items = 0 := by
  induction items with
  | nil => rfl
  | cons item items ih =>
      rw [total_cons, hzero item List.mem_cons_self, zero_add]
      exact ih fun other hother => hzero other (List.mem_cons_of_mem item hother)

/-- The total over all lists is the sum of the totals of each. -/
theorem total_flatten (lists : List (List Item)) :
    total measure lists.flatten = total (total measure) lists := by
  induction lists with
  | nil => rfl
  | cons list lists ih => simp [ih]

/-- What is not picked counts for nothing. -/
theorem total_filterMap {Other : Type*} (pick : Other → Option Item) (others : List Other) :
    total measure (others.filterMap pick) =
      total (fun other => (pick other).elim 0 measure) others := by
  induction others with
  | nil => rfl
  | cons other others ih => cases hpick : pick other <;> simp [hpick, ih]

/-- One item can be taken out of a total. -/
theorem total_of_mem (measure : Item → Amount) {item : Item} (hmem : item ∈ items) :
    ∃ others, total measure items = others + measure item := by
  obtain ⟨left, right, rfl⟩ := List.append_of_mem hmem
  refine ⟨total measure left + total measure right, ?_⟩
  rw [total_append, total_cons]
  abel

/-- A change the measure does not see keeps the total. -/
theorem total_map {change : Item → Item} (hmeasure : ∀ item, measure (change item) = measure item) :
    total measure (items.map change) = total measure items := by
  induction items with
  | nil => rfl
  | cons item items ih => simp [hmeasure, ih]

/-- A change of one item that the measure does not see keeps the total. -/
theorem total_modify {change : Item → Item} (index : ℕ)
    (hmeasure : ∀ item, measure (change item) = measure item) :
    total measure (items.modify index change) = total measure items := by
  induction items generalizing index with
  | nil => cases index <;> rfl
  | cons item items ih => cases index <;> simp [hmeasure, ih]

/-- Changing an item moves the total by the difference of the two measures. -/
theorem total_modify_of_get {change : Item → Item} {index : ℕ} {item : Item}
    (hget : items[index]? = some item) :
    total measure (items.modify index change) + measure item =
      total measure items + measure (change item) := by
  have hset : items.modify index change = items.set index (change item) := by
    rw [List.modify_eq_set_getElem?, hget]
    rfl
  rw [hset]
  exact total_set _ hget

end Total

section Lists

variable {Item Amount : Type*} [AddCancelCommMonoid Amount]
variable {lists : List (List Item)} {list : List Item} {index : ℕ} {item : Item}

/-- An item put in front of one of several lists adds its measure. -/
theorem total_set_cons (measure : Item → Amount) (item : Item)
    (hget : lists[index]? = some list) :
    total (total measure) (lists.set index (item :: list)) =
      total (total measure) lists + measure item := by
  have hset : total (total measure) (lists.set index (item :: list)) + total measure list =
      total (total measure) lists + total measure (item :: list) :=
    total_set (item :: list) hget
  rw [total_cons, ← add_assoc] at hset
  exact add_right_cancel hset

/-- An item taken from the front of one of several lists takes its measure away. -/
theorem total_set_tail (measure : Item → Amount) (hget : lists[index]? = some (item :: list)) :
    total (total measure) (lists.set index list) + measure item =
      total (total measure) lists := by
  have hset : total (total measure) (lists.set index list) + total measure (item :: list) =
      total (total measure) lists + total measure list :=
    total_set list hget
  rw [total_cons, ← add_assoc] at hset
  exact add_right_cancel hset

/-- An item taken from the back of one of several lists takes its measure away. -/
theorem total_set_dropLast (measure : Item → Amount)
    (hget : lists[index]? = some (list ++ [item])) :
    total (total measure) (lists.set index list) + measure item =
      total (total measure) lists := by
  have hset : total (total measure) (lists.set index list) + total measure (list ++ [item]) =
      total (total measure) lists + total measure list :=
    total_set list hget
  rw [total_append, total_cons, total_nil, add_zero, add_comm (total measure list),
    ← add_assoc] at hset
  exact add_right_cancel hset

end Lists

section Count

variable {Item : Type*} {measure : Item → ℕ} {items : List Item}

/-- No item measures more than the total. -/
theorem le_total {item : Item} (hmem : item ∈ items) : measure item ≤ total measure items :=
  List.single_le_sum (fun _ _ => Nat.zero_le _) _ (List.mem_map_of_mem hmem)

theorem total_eq_zero_iff : total measure items = 0 ↔ ∀ item ∈ items, measure item = 0 := by
  induction items with
  | nil => simp
  | cons item items ih => simp [ih]

theorem total_pos_iff : 0 < total measure items ↔ ∃ item ∈ items, 0 < measure item := by
  rw [Nat.pos_iff_ne_zero, Ne, total_eq_zero_iff]
  simp [Nat.pos_iff_ne_zero]

/-- Counting is a total of zeros and ones. -/
theorem total_countP (holds : Item → Bool) :
    total (fun item => if holds item then 1 else 0) items = items.countP holds := by
  induction items with
  | nil => rfl
  | cons item items ih => simp [List.countP_cons, ih, Nat.add_comm]

theorem total_count [DecidableEq Item] (wanted : Item) :
    total (fun item => if item = wanted then 1 else 0) items = items.count wanted := by
  induction items with
  | nil => rfl
  | cons item items ih => simp [List.count_cons, ih, Nat.add_comm]

/-- Counting pairs by one side or by the other. -/
theorem total_countP_eq {Other : Type*} [DecidableEq Item] (view : Other → Item)
    (others : List Other) :
    total (fun item => others.countP (fun other => view other = item)) items =
      total (fun other => items.count (view other)) others := by
  induction others with
  | nil => simp
  | cons other others ih =>
      simp only [List.countP_cons, total_add, total_cons, ih, decide_eq_true_eq]
      rw [← total_count (view other), Nat.add_comm]
      simp only [eq_comm]

/-- A total of one comes from one item alone. -/
theorem exists_of_total_eq_one (hone : total measure items = 1) :
    ∃ item ∈ items, measure item = 1 ∧ ∀ other ∈ items, other ≠ item → measure other = 0 := by
  induction items with
  | nil => simp at hone
  | cons item items ih =>
      rw [total_cons] at hone
      rcases Nat.eq_zero_or_pos (measure item) with hzero | hpos
      · obtain ⟨kept, hkept, hmeasure, hothers⟩ := ih (by omega)
        refine ⟨kept, List.mem_cons_of_mem item hkept, hmeasure, fun other hother hne => ?_⟩
        rcases List.mem_cons.mp hother with rfl | hmem
        · exact hzero
        · exact hothers other hmem hne
      · have hrest : total measure items = 0 := by omega
        refine ⟨item, List.mem_cons_self, by omega, fun other hother hne => ?_⟩
        exact total_eq_zero_iff.mp hrest other (List.mem_of_ne_of_mem hne hother)

theorem total_one : total (fun _ => 1) items = items.length := by
  simp [total]

end Count

section Weight

variable {Item Amount : Type*} [AddCommMonoid Amount]

/-- The weight of all items of a bag together. -/
def weight (measure : Item → Amount) (bag : Multiset Item) : Amount :=
  (bag.map measure).sum

variable {measure : Item → Amount}

@[simp]
theorem weight_zero : weight measure 0 = 0 := rfl

@[simp]
theorem weight_add (left right : Multiset Item) :
    weight measure (left + right) = weight measure left + weight measure right := by
  simp [weight]

@[simp]
theorem weight_singleton (item : Item) : weight measure {item} = measure item := by
  simp [weight]

@[simp]
theorem weight_cons (item : Item) (bag : Multiset Item) :
    weight measure (item ::ₘ bag) = measure item + weight measure bag := by
  simp [weight]

@[simp]
theorem weight_coe (items : List Item) :
    weight measure (items : Multiset Item) = total measure items := by
  simp [weight, total]

/-- The weight of a union of bags is the total of their weights. -/
theorem weight_total {Other : Type*} (view : Other → Multiset Item) (others : List Other) :
    weight measure (total view others) =
      total (fun other => weight measure (view other)) others := by
  induction others with
  | nil => rfl
  | cons other others ih => simp [ih]

theorem mem_total {Other : Type*} {view : Other → Multiset Item} {others : List Other}
    {item : Item} : item ∈ total view others ↔ ∃ other ∈ others, item ∈ view other := by
  induction others with
  | nil => simp
  | cons other others ih => simp [ih]

end Weight

section Bags

variable {Item : Type*} {measure : Item → ℕ}

/-- No item weighs more than the bag. -/
theorem le_weight {bag : Multiset Item} {item : Item} (hmem : item ∈ bag) :
    measure item ≤ weight measure bag :=
  Multiset.single_le_sum (fun _ _ => Nat.zero_le _) _ (Multiset.mem_map_of_mem measure hmem)

theorem weight_le_weight {other : Item → ℕ} (hle : ∀ item, measure item ≤ other item)
    (bag : Multiset Item) : weight measure bag ≤ weight other bag :=
  Multiset.sum_map_le_sum_map measure other fun item _ => hle item

/-- A bag weighs something when one of its items does. -/
theorem weight_pos_iff {bag : Multiset Item} :
    0 < weight measure bag ↔ ∃ item ∈ bag, 0 < measure item := by
  induction bag using Multiset.induction with
  | empty => simp
  | cons item bag ih =>
      rw [← Multiset.singleton_add, weight_add, weight_singleton, Nat.add_pos_iff_pos_or_pos, ih]
      simp

end Bags

end RpcDemo.Ledger
