import RpcDemo.Threadpool.CallablePrograms

/-!
# Every callable is owned once and destroyed once

Each operation of a program does what the program means and keeps the
invariant; so does a program.  The invariant of the memory it leaves says who
owns the objects that live, and that the others have been destroyed once.
-/

namespace RpcDemo.MFunction

open RpcDemo.Action Memory

variable {Var : Type*}

namespace Op

def target : Op Var → Var
  | constructFrom var _ _ => var
  | construct var => var
  | moveConstruct var _ _ => var
  | moveAssign var _ _ => var
  | assignNull var => var
  | invoke var => var
  | destruct var => var

def source : Op Var → Option Var
  | moveConstruct _ other _ => some other
  | moveAssign _ other _ => some other
  | _ => none

/-- The variables whose object an operation may change: the source of a move
that throws is not among them. -/
def Touches (op : Op Var) (result : Except Exn (Option Callable)) (owner : Var) : Prop :=
  owner = op.target ∨ result = .ok none ∧ op.source = some owner

end Op

variable [DecidableEq Var] {memory : Memory Var} {op : Op Var} {ops : List (Op Var)}
  {result : Except Exn (Option Callable)} {table : Contents Var}

theorem perform_refines (hsound : memory.Sound)
    (hexpected : expected memory.contents op = some (result, table)) :
    ∃ after, (perform op).run memory = some (result, after) ∧
      memory.Becomes after (op.Touches result) table := by
  cases op with
  | constructFrom var callable faults =>
      simp only [expected] at hexpected
      split at hexpected
      case h_1 => cases hexpected
      case h_2 hvar =>
        split at hexpected
        case h_1 exn hfault =>
          cases hexpected
          obtain ⟨after, hrun, hafter⟩ := constructFrom_throws hsound hvar hfault
          exact ⟨after, run_bind_of_throws hrun _, hafter.mono fun _ => .inl⟩
        case h_2 hfault =>
          cases hexpected
          obtain ⟨after, hrun, hafter⟩ := constructFrom_becomes hsound hvar hfault
          exact ⟨after, run_bind hrun _, hafter.mono fun _ => .inl⟩
  | construct var =>
      simp only [expected] at hexpected
      split at hexpected
      case h_1 => cases hexpected
      case h_2 hvar =>
        cases hexpected
        obtain ⟨after, hrun, hafter⟩ := declare_becomes hsound hvar
        exact ⟨after, run_bind hrun _, hafter.mono fun _ => .inl⟩
  | moveConstruct var other fault =>
      simp only [expected] at hexpected
      split at hexpected
      case h_1 held hvar hother =>
        split at hexpected
        case h_1 exn hfault =>
          cases hexpected
          obtain ⟨after, hrun, hafter⟩ := moveConstruct_throws hsound hvar hother hfault
          exact ⟨after, run_bind_of_throws hrun _, hafter.mono fun _ => .inl⟩
        case h_2 hfault =>
          cases hexpected
          obtain ⟨after, hrun, hafter⟩ := moveConstruct_becomes hsound hvar hother hfault
          refine ⟨after, run_bind hrun _, hafter.mono ?_⟩
          rintro owner (rfl | rfl)
          · exact .inl rfl
          · exact .inr ⟨rfl, rfl⟩
      case h_2 => cases hexpected
  | moveAssign var other fault =>
      simp only [expected] at hexpected
      split at hexpected
      case h_1 current held hvar hother =>
        split at hexpected
        case isTrue hself =>
          cases hexpected
          have hassign : (moveAssign var other fault).run memory = some (.ok (), memory) := by
            rw [moveAssign, if_neg (not_not.mpr hself), run_pure]
          exact ⟨memory, run_bind hassign _, hsound.becomes _⟩
        case isFalse hne =>
          have hassign : moveAssign var other fault = assign var other fault := if_pos hne
          split at hexpected
          case h_1 exn hfault =>
            cases hexpected
            obtain ⟨after, hrun, hafter⟩ := assign_throws hsound hne hvar hother hfault
            rw [← hassign] at hrun
            exact ⟨after, run_bind_of_throws hrun _, hafter.mono fun _ => .inl⟩
          case h_2 hfault =>
            cases hexpected
            obtain ⟨after, hrun, hafter⟩ := assign_becomes hsound hne hvar hother hfault
            rw [← hassign] at hrun
            refine ⟨after, run_bind hrun _, hafter.mono ?_⟩
            rintro owner (rfl | rfl)
            · exact .inl rfl
            · exact .inr ⟨rfl, rfl⟩
      case h_2 => cases hexpected
  | assignNull var =>
      simp only [expected] at hexpected
      split at hexpected
      case h_1 held hvar =>
        cases hexpected
        obtain ⟨after, hrun, hafter⟩ := destory_becomes hsound hvar
        exact ⟨after, run_bind hrun _, hafter.mono fun _ => .inl⟩
      case h_2 => cases hexpected
  | invoke var =>
      simp only [expected] at hexpected
      split at hexpected
      case h_1 callable hvar =>
        cases hexpected
        exact ⟨memory, run_bind (run_call hsound hvar) _, hsound.becomes _⟩
      case h_2 hvar =>
        cases hexpected
        exact ⟨memory, run_bind_of_throws (run_call_of_empty hsound hvar) _, hsound.becomes _⟩
      case h_3 => cases hexpected
  | destruct var =>
      simp only [expected] at hexpected
      split at hexpected
      case h_1 held hvar =>
        cases hexpected
        obtain ⟨after, hrun, hafter⟩ := destruct_becomes hsound hvar
        exact ⟨after, run_bind hrun _, hafter.mono fun _ => .inl⟩
      case h_2 => cases hexpected

theorem performAll_refines {results : List (Except Exn (Option Callable))}
    (hsound : memory.Sound)
    (hexpected : expectedAll ops memory.contents = some (results, table)) :
    ∃ after, performAll ops memory = some (results, after) ∧
      after.Sound ∧ after.contents = table := by
  induction ops generalizing memory results with
  | nil =>
      cases hexpected
      exact ⟨memory, rfl, hsound, rfl⟩
  | cons op ops ih =>
      obtain ⟨⟨result, middle⟩, hop, hrest⟩ := Option.bind_eq_some_iff.mp hexpected
      obtain ⟨⟨others, final⟩, hops, heq⟩ := Option.map_eq_some_iff.mp hrest
      cases heq
      obtain ⟨next, hperform, hnext⟩ := perform_refines hsound hop
      rw [← hnext.contents] at hops
      obtain ⟨after, hrun, hafter⟩ := ih hnext.sound hops
      exact ⟨after, by simp [performAll, hperform, hrun], hafter⟩

/-- An operation that throws changes at most its target, which it leaves empty or
undeclared. -/
theorem expected_error {exn : Exn} {before : Contents Var}
    (hexpected : expected before op = some (.error exn, table)) :
    (∀ var, var ≠ op.target → table var = before var) ∧
      (table op.target = none ∨ table op.target = some none) ∧
      (before op.target ≠ none → table op.target = some none) := by
  cases op with
  | constructFrom var callable faults =>
      simp only [expected] at hexpected
      split at hexpected
      case h_1 => cases hexpected
      case h_2 hvar =>
        split at hexpected <;> cases hexpected
        exact ⟨fun _ _ => rfl, .inl hvar, fun hdeclared => absurd hvar hdeclared⟩
  | construct var =>
      simp only [expected] at hexpected
      split at hexpected <;> cases hexpected
  | moveConstruct var other fault =>
      simp only [expected] at hexpected
      split at hexpected
      case h_1 held hvar hother =>
        split at hexpected <;> cases hexpected
        exact ⟨fun _ _ => rfl, .inl hvar, fun hdeclared => absurd hvar hdeclared⟩
      case h_2 => cases hexpected
  | moveAssign var other fault =>
      simp only [expected] at hexpected
      split at hexpected
      case h_1 current held hvar hother =>
        split at hexpected
        case isTrue => cases hexpected
        case isFalse =>
          split at hexpected <;> cases hexpected
          exact ⟨fun _ hne => Function.update_of_ne hne _ _,
            .inr (Function.update_self _ _ _), fun _ => Function.update_self _ _ _⟩
      case h_2 => cases hexpected
  | assignNull var =>
      simp only [expected] at hexpected
      split at hexpected <;> cases hexpected
  | invoke var =>
      simp only [expected] at hexpected
      split at hexpected <;> cases hexpected
      case h_2 hvar => exact ⟨fun _ _ => rfl, .inr hvar, fun _ => hvar⟩
  | destruct var =>
      simp only [expected] at hexpected
      split at hexpected <;> cases hexpected

namespace Memory

/-- Each object that lives is owned by one variable, behind the virtual table of
its type and storage; a variable with a virtual table owns such an object; what
ended has ended once. -/
structure OwnedOnce (memory : Memory Var) : Prop where
  owner : ∀ id < memory.nextObject, id ∉ memory.destroyed →
    ∃! var, ∃ object, memory.Holds var object ∧ object.id = id
  nonempty : ∀ var pack, memory.packs var = some pack → pack.vtab ≠ none →
    ∃ object, memory.Holds var object ∧ object.id < memory.nextObject ∧
      object.id ∉ memory.destroyed
  destroyed : memory.destroyed.Nodup ∧ ∀ id ∈ memory.destroyed, id < memory.nextObject
  freed : memory.freed.Nodup ∧ ∀ block ∈ memory.freed, block < memory.nextBlock
  allocated : ∀ block, (memory.heap block).isSome = true ↔
    block < memory.nextBlock ∧ block ∉ memory.freed

omit [DecidableEq Var] in
theorem Sound.holds_of_owned (hsound : memory.Sound) {var : Var} {object : Object}
    (howned : memory.owned var = some object) : memory.Holds var object := by
  obtain ⟨⟨storage, vtab⟩, hpack, hobject⟩ := Option.bind_eq_some_iff.mp howned
  cases vtab with
  | none => cases hobject
  | some vtab =>
      obtain ⟨held, hholds⟩ := hsound.typed hpack rfl
      obtain rfl := Option.some.inj (hholds.owned.symm.trans howned)
      exact hholds

omit [DecidableEq Var] in
theorem Sound.isSome_of_ownedBlock (hsound : memory.Sound) {var : Var} {block : ℕ}
    (hblock : memory.ownedBlock var = some block) : (memory.heap block).isSome = true := by
  obtain ⟨⟨storage, vtab⟩, hpack, hvtab⟩ := Option.bind_eq_some_iff.mp hblock
  cases vtab with
  | none => cases hvtab
  | some vtab =>
      obtain ⟨object, hholds⟩ := hsound.typed hpack rfl
      cases hholds with
      | stack htype hvar =>
          rw [ownedBlock_of_stack htype hvar] at hblock
          cases hblock
      | heap held htype hvar hheld =>
          rw [ownedBlock_of_heap htype hvar] at hblock
          cases hblock
          rw [hheld]
          rfl

omit [DecidableEq Var] in
theorem Sound.ownedOnce (hsound : memory.Sound) : memory.OwnedOnce where
  owner := by
    intro id hid hlive
    have hiff : ∀ var, memory.objects.held var = some id ↔
        ∃ object, memory.Holds var object ∧ object.id = id := by
      intro var
      constructor
      · intro hheld
        obtain ⟨object, howned, rfl⟩ := Option.map_eq_some_iff.mp hheld
        exact ⟨object, hsound.holds_of_owned howned, rfl⟩
      · rintro ⟨object, hholds, rfl⟩
        exact Option.map_eq_some_iff.mpr ⟨object, hholds.owned, rfl⟩
    simpa only [hiff] using hsound.objects.existsUnique_holder hid hlive
  nonempty := by
    intro var pack hpack hvtab
    obtain ⟨object, hholds⟩ := hsound.typed hpack (Option.isSome_iff_ne_none.mpr hvtab)
    have hheld : memory.objects.held var = some object.id :=
      Option.map_eq_some_iff.mpr ⟨object, hholds.owned, rfl⟩
    exact ⟨object, hholds, hsound.objects.held_lt hheld, hsound.objects.held_not_ended hheld⟩
  destroyed := ⟨hsound.objects.ended_nodup, fun _ => hsound.objects.ended_lt⟩
  freed := ⟨hsound.blocks.ended_nodup, fun _ => hsound.blocks.ended_lt⟩
  allocated := by
    intro block
    constructor
    · intro hheap
      obtain ⟨var, hvar⟩ := hsound.allocated hheap
      exact ⟨hsound.blocks.held_lt hvar, hsound.blocks.held_not_ended hvar⟩
    · rintro ⟨hlt, hfreed⟩
      obtain ⟨var, hvar⟩ := hsound.blocks.held_of_not_ended hlt hfreed
      exact hsound.isSome_of_ownedBlock hvar

/-- A program that may have thrown `exn` in its last operation: the variables it
did not assign or construct own what they owned, its target owns nothing, and a
target that was in scope is empty. -/
structure Failed (before after : Memory Var) (op : Op Var) : Prop where
  others : ∀ var, var ≠ op.target →
    after.owned var = before.owned var ∧ after.contents var = before.contents var
  target : after.owned op.target = none
  emptied : before.contents op.target ≠ none → after.contents op.target = some none

omit [DecidableEq Var] in
theorem owned_eq_none {var : Var}
    (hvar : memory.contents var = none ∨ memory.contents var = some none) :
    memory.owned var = none := by
  cases hpack : memory.packs var with
  | none => exact owned_of_vacant (by simp [hpack])
  | some pack => simpa [contents, hpack] using hvar

theorem Becomes.failed {after : Memory Var} {exn : Exn}
    (hexpected : expected memory.contents op = some (.error exn, table))
    (hbecomes : memory.Becomes after (op.Touches (.error exn)) table) :
    memory.Failed after op := by
  obtain ⟨hothers, htarget, hemptied⟩ := expected_error hexpected
  rw [← hbecomes.contents] at hothers htarget hemptied
  refine ⟨fun var hvar => ⟨hbecomes.owned var ?_, hothers var hvar⟩, owned_eq_none htarget,
    hemptied⟩
  rintro (rfl | ⟨hok, -⟩)
  · exact hvar rfl
  · cases hok

end Memory

/-! ## Programs -/

/-- A program behaves as it means, from declarations to the last destructor:
results and exceptions are the expected ones, after every operation the objects
that live are owned by one variable each, a following operation that throws
leaves the other variables alone and its target empty, an invocation runs the
callable of its variable, and when no variable is left every object has been
destroyed once and every block freed once. -/
theorem callables_owned_and_destroyed_once {results : List (Except Exn (Option Callable))}
    (hprogram : expectedAll ops (fun _ => none) = some (results, table)) :
    ∃ memory, performAll ops start = some (results, memory) ∧
      memory.contents = table ∧ memory.OwnedOnce ∧
      (∀ op exn table', expected table op = some (.error exn, table') →
        ∃ after, (perform op).run memory = some (.error exn, after) ∧
          after.contents = table' ∧ memory.Failed after op) ∧
      (∀ var callable, table var = some (some callable) →
        (call var).run memory = some (.ok callable, memory)) ∧
      (∀ var, table var = some none →
        (call var).run memory = some (.error (.stdException "Invaild function."), memory)) ∧
      ((∀ var, table var = none) →
        (∀ id < memory.nextObject, memory.destroyed.count id = 1) ∧
          ∀ block < memory.nextBlock, memory.freed.count block = 1) := by
  obtain ⟨memory, hrun, hsound, rfl⟩ := performAll_refines start_sound hprogram
  refine ⟨memory, hrun, rfl, hsound.ownedOnce, ?_, fun _ _ => run_call hsound,
    fun _ => run_call_of_empty hsound, fun hgone => ⟨?_, ?_⟩⟩
  · intro op exn table' hexpected
    obtain ⟨after, hperform, hafter⟩ := perform_refines hsound hexpected
    exact ⟨after, hperform, hafter.contents, hafter.failed hexpected⟩
  · intro id hid
    refine hsound.objects.count_ended (fun var => ?_) hid
    exact Option.map_eq_none_iff.mpr (owned_eq_none (.inl (hgone var)))
  · intro block hblock
    refine hsound.blocks.count_ended (fun var => ?_) hblock
    have hpack := contents_eq_none_iff.mp (hgone var)
    exact ownedBlock_of_vacant (by simp [hpack])

/-- Two words, in place. -/
def smallCallable : Callable := ⟨⟨0, 16, 8⟩, 1⟩

/-- Sixteen words, on the heap. -/
def largeCallable : Callable := ⟨⟨1, 128, 8⟩, 2⟩

/-- A move whose constructor throws, an assignment over a callable and
destruction. -/
def exchange : List (Op ℕ) :=
  [.constructFrom 0 smallCallable ⟨false, none⟩, .constructFrom 1 largeCallable ⟨false, none⟩,
    .moveAssign 1 0 (some .other), .invoke 1, .moveAssign 1 0 none, .invoke 1,
    .constructFrom 2 largeCallable ⟨false, some .other⟩, .destruct 0, .destruct 1]

theorem callables_owned_exchange :
    ∃ memory : Memory ℕ, performAll exchange start =
      some ([.ok none, .ok none, .error .other, .error (.stdException "Invaild function."),
        .ok none, .ok (some smallCallable), .error .other, .ok none, .ok none], memory) ∧
      (∀ id < memory.nextObject, memory.destroyed.count id = 1) ∧
      ∀ block < memory.nextBlock, memory.freed.count block = 1 := by
  obtain ⟨memory, hrun, -, -, -, -, -, hended⟩ :=
    callables_owned_and_destroyed_once (rfl : expectedAll exchange (fun _ => none) = some (_, _))
  refine ⟨memory, hrun, hended fun var => ?_⟩
  simp +contextual [Function.update_apply]

end RpcDemo.MFunction
