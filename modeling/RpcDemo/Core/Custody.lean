import Mathlib.Data.List.Basic
import Mathlib.Data.List.Nodup
import Mathlib.Logic.Function.Basic

/-!
# Custody of numbered items

Items are numbered as they come into being; each is held by one owner until it
ends.  An owner may acquire a new item, end the one it holds, or hand it to an
owner that holds none.  In every state so reached an item that has come into
being is either held by exactly one owner or has ended exactly once.
-/

namespace RpcDemo

/-- Who holds which item, the number of items that have come into being, and the items that
have ended, in order. -/
structure Custody (Owner : Type*) where
  held : Owner → Option ℕ
  next : ℕ
  ended : List ℕ

namespace Custody

variable {Owner : Type*}

/-- An item is held by one owner or has ended, never both, and ends once. -/
structure Sound (custody : Custody Owner) : Prop where
  exclusive : ∀ {owner other item}, custody.held owner = some item →
    custody.held other = some item → owner = other
  held_lt : ∀ {owner item}, custody.held owner = some item → item < custody.next
  held_not_ended : ∀ {owner item}, custody.held owner = some item → item ∉ custody.ended
  ended_lt : ∀ {item}, item ∈ custody.ended → item < custody.next
  ended_nodup : custody.ended.Nodup
  held_of_not_ended : ∀ {item}, item < custody.next → item ∉ custody.ended →
    ∃ owner, custody.held owner = some item

/-- An item that has come into being and not ended has exactly one owner. -/
theorem Sound.existsUnique_holder {custody : Custody Owner} (hsound : custody.Sound) {item : ℕ}
    (hitem : item < custody.next) (hended : item ∉ custody.ended) :
    ∃! owner, custody.held owner = some item := by
  obtain ⟨owner, hheld⟩ := hsound.held_of_not_ended hitem hended
  exact ⟨owner, hheld, fun other hother => hsound.exclusive hother hheld⟩

/-- When nobody holds anything, every item has ended exactly once. -/
theorem Sound.count_ended {custody : Custody Owner} (hsound : custody.Sound)
    (hheld : ∀ owner, custody.held owner = none) {item : ℕ} (hitem : item < custody.next) :
    custody.ended.count item = 1 := by
  apply List.count_eq_one_of_mem hsound.ended_nodup
  by_contra hended
  obtain ⟨owner, howner⟩ := hsound.held_of_not_ended hitem hended
  simp [hheld owner] at howner

/-- Nothing has come into being. -/
def empty : Custody Owner where
  held _ := none
  next := 0
  ended := []

theorem empty_sound : (empty : Custody Owner).Sound := by
  constructor <;> simp [empty]

variable [DecidableEq Owner]

/-- The next item comes into being in the hands of an owner. -/
def acquire (custody : Custody Owner) (owner : Owner) : Custody Owner where
  held := Function.update custody.held owner (some custody.next)
  next := custody.next + 1
  ended := custody.ended

/-- The item an owner holds ends. -/
def finish (custody : Custody Owner) (owner : Owner) (item : ℕ) : Custody Owner where
  held := Function.update custody.held owner none
  next := custody.next
  ended := custody.ended ++ [item]

/-- What one owner holds goes to another; the first is left with nothing. -/
def transfer (custody : Custody Owner) (source target : Owner) : Custody Owner where
  held := Function.update (Function.update custody.held target (custody.held source)) source none
  next := custody.next
  ended := custody.ended

/-- An owner that holds nothing may acquire. -/
theorem Sound.acquire {custody : Custody Owner} (hsound : custody.Sound) {owner : Owner}
    (hempty : custody.held owner = none) : (custody.acquire owner).Sound := by
  have hnew : ∀ {other item}, (custody.acquire owner).held other = some item →
      (other = owner ∧ item = custody.next) ∨ custody.held other = some item := by
    intro other item hheld
    by_cases hother : other = owner
    · subst hother
      exact .inl ⟨rfl, by simpa [Custody.acquire, eq_comm] using hheld⟩
    · exact .inr (by simpa [Custody.acquire, hother] using hheld)
  refine ⟨?_, ?_, ?_, ?_, hsound.ended_nodup, ?_⟩
  case refine_1 =>
    intro left right item hleft hright
    rcases hnew hleft with ⟨rfl, rfl⟩ | hold <;> rcases hnew hright with ⟨rfl, heq⟩ | hold'
    · rfl
    · exact absurd (hsound.held_lt hold') (Nat.lt_irrefl _)
    · exact absurd (heq ▸ hsound.held_lt hold) (Nat.lt_irrefl _)
    · exact hsound.exclusive hold hold'
  case refine_2 =>
    intro other item hheld
    rcases hnew hheld with ⟨rfl, rfl⟩ | hold
    · exact Nat.lt_succ_self _
    · exact Nat.lt_succ_of_lt (hsound.held_lt hold)
  case refine_3 =>
    intro other item hheld
    rcases hnew hheld with ⟨rfl, rfl⟩ | hold
    · exact fun hended => Nat.lt_irrefl _ (hsound.ended_lt hended)
    · exact hsound.held_not_ended hold
  case refine_4 => exact fun hended => Nat.lt_succ_of_lt (hsound.ended_lt hended)
  case refine_5 =>
    intro item hitem hended
    rcases Nat.lt_succ_iff_lt_or_eq.mp hitem with hitem | rfl
    · obtain ⟨other, hother⟩ := hsound.held_of_not_ended hitem hended
      have hne : other ≠ owner := by
        rintro rfl
        simp [hempty] at hother
      exact ⟨other, by simpa [Custody.acquire, hne] using hother⟩
    · exact ⟨owner, by simp [Custody.acquire]⟩

/-- An owner may end what it holds. -/
theorem Sound.finish {custody : Custody Owner} (hsound : custody.Sound) {owner : Owner} {item : ℕ}
    (hheld : custody.held owner = some item) : (custody.finish owner item).Sound := by
  have hold : ∀ {other kept}, (custody.finish owner item).held other = some kept →
      other ≠ owner ∧ custody.held other = some kept := by
    intro other kept hkept
    by_cases hother : other = owner
    · simp [Custody.finish, hother] at hkept
    · exact ⟨hother, by simpa [Custody.finish, hother] using hkept⟩
  refine ⟨?_, fun hkept => hsound.held_lt (hold hkept).2, ?_, ?_, ?_, ?_⟩
  case refine_1 => exact fun hleft hright => hsound.exclusive (hold hleft).2 (hold hright).2
  case refine_2 =>
    intro other kept hkept
    obtain ⟨hother, hwas⟩ := hold hkept
    have hitem : kept ≠ item := by
      rintro rfl
      exact hother (hsound.exclusive hwas hheld)
    simpa [Custody.finish, hitem] using hsound.held_not_ended hwas
  case refine_3 =>
    intro other hended
    rcases List.mem_append.mp hended with hended | hlast
    · exact hsound.ended_lt hended
    · obtain rfl := List.mem_singleton.mp hlast
      exact hsound.held_lt hheld
  case refine_4 =>
    exact List.nodup_append.mpr ⟨hsound.ended_nodup, List.nodup_singleton item,
      fun other hended last hlast heq =>
        hsound.held_not_ended hheld (List.mem_singleton.mp hlast ▸ heq ▸ hended)⟩
  case refine_5 =>
    intro kept hlt hended
    simp only [Custody.finish, List.mem_append, List.mem_singleton, not_or] at hended
    obtain ⟨other, hother⟩ := hsound.held_of_not_ended hlt hended.1
    have hne : other ≠ owner := by
      rintro rfl
      exact hended.2 (Option.some.inj (hother.symm.trans hheld))
    exact ⟨other, by simpa [Custody.finish, hne] using hother⟩

/-- An owner that holds nothing may be handed what another holds, be it nothing. -/
theorem Sound.transfer {custody : Custody Owner} (hsound : custody.Sound) {source target : Owner}
    (hempty : custody.held target = none) : (custody.transfer source target).Sound := by
  have hback : ∀ {owner item}, (custody.transfer source target).held owner = some item →
      (owner = target ∧ custody.held source = some item) ∨
        (owner ≠ source ∧ custody.held owner = some item) := by
    intro owner item hheld
    by_cases hsource : owner = source
    · simp [Custody.transfer, hsource] at hheld
    by_cases htarget : owner = target
    · subst htarget
      exact .inl ⟨rfl, by simpa [Custody.transfer, hsource] using hheld⟩
    · exact .inr ⟨hsource, by simpa [Custody.transfer, hsource, htarget] using hheld⟩
  have hwas : ∀ {owner item}, (custody.transfer source target).held owner = some item →
      ∃ holder, custody.held holder = some item := by
    intro owner item hheld
    rcases hback hheld with ⟨-, hheld⟩ | ⟨-, hheld⟩
    · exact ⟨source, hheld⟩
    · exact ⟨owner, hheld⟩
  refine ⟨?_, ?_, ?_, hsound.ended_lt, hsound.ended_nodup, ?_⟩
  case refine_1 =>
    intro left right item hleft hright
    rcases hback hleft with ⟨rfl, hold⟩ | ⟨hne, hold⟩ <;>
      rcases hback hright with ⟨rfl, hold'⟩ | ⟨hne', hold'⟩
    · rfl
    · exact absurd (hsound.exclusive hold' hold) hne'
    · exact absurd (hsound.exclusive hold hold') hne
    · exact hsound.exclusive hold hold'
  case refine_2 =>
    intro owner item hheld
    obtain ⟨holder, hholder⟩ := hwas hheld
    exact hsound.held_lt hholder
  case refine_3 =>
    intro owner item hheld
    obtain ⟨holder, hholder⟩ := hwas hheld
    exact hsound.held_not_ended hholder
  case refine_4 =>
    intro item hlt hended
    obtain ⟨owner, howner⟩ := hsound.held_of_not_ended hlt hended
    by_cases hsource : owner = source
    · subst hsource
      have hne : target ≠ owner := by
        rintro rfl
        simp [hempty] at howner
      exact ⟨target, by simpa [Custody.transfer, hne] using howner⟩
    · have htarget : owner ≠ target := by
        rintro rfl
        simp [hempty] at howner
      exact ⟨owner, by simpa [Custody.transfer, hsource, htarget] using howner⟩

end Custody

end RpcDemo
