import RpcDemo.Threadpool.Conservation
import RpcDemo.Threadpool.Invocations
import RpcDemo.Threadpool.Values

/-!
# The laws of the bag together

Tasks are conserved, an uncompleted state has one driver, a future is handed out
once, a continuation is run once, and results come from where they should.
-/

namespace RpcDemo.Threadpool

open Ledger Transition

variable {Fn Value Error : Type}

/-- An exception in flight, or a catch block at work. -/
def Item.raised : Item Fn Value Error → ℕ
  | .thrown _ => 1
  | .active (.recover _ _) => 1
  | _ => 0

/-- All laws of the bag; and nothing is in flight while no push failed and nothing threw. -/
structure Config.Coherent (config : Config Fn Value Error) : Prop where
  conserved : config.Conserved
  driven : config.Driven
  handedOut : config.HandedOut
  attachedTo : ∀ upstream, config.AttachedTo upstream
  invoked : config.Invoked
  sound : config.Sound
  calm : config.memory.lost = [] → config.memory.threw = [] → weight Item.raised config.bag = 0

namespace Config.Coherent

variable {move : Move Fn Value Error} {rest : Bag Fn Value Error}
variable {memory memory' : Memory Fn Value Error} {removed added : List (Item Fn Value Error)}

/-- Only a failed push and a throwing detached task raise an exception. -/
theorem calm_change (hchange : Change move memory removed added memory')
    (hbefore : Coherent (.beside rest removed memory)) :
    memory'.lost = [] → memory'.threw = [] →
      weight Item.raised (beside rest added memory').bag = 0 := by
  have hcalm := hbefore.calm
  simp only [weight_add, weight_coe] at hcalm ⊢
  cases hchange with
  | refuseValue _ state value stage hstage hpromise =>
      have hnone := hbefore.driven.promise_eq_none (mem_beside List.mem_cons_self) hstage
      simp [hnone] at hpromise
  | refuseError _ state error stage hstage hpromise =>
      have hnone := hbefore.driven.promise_eq_none (mem_beside List.mem_cons_self) hstage
      simp [hnone] at hpromise
  | complete _ state completion stage hstage hpromise =>
      cases completion <;> simpa [Item.raised, Code.tryBlock] using hcalm
  | fail => simp
  | throwDetached => simp
  | recover | escape | rescue | leave | land =>
      simp [Item.raised] at hcalm
      exact fun hlost hthrew => absurd hthrew (hcalm hlost)
  | _ => simpa [Item.raised] using hcalm

theorem change (hchange : Change move memory removed added memory')
    (hbefore : Coherent (.beside rest removed memory)) : Coherent (.beside rest added memory') where
  conserved := hbefore.conserved.change hchange
  driven := hbefore.driven.change hchange
  handedOut := hbefore.handedOut.change hchange
  attachedTo := fun upstream => (hbefore.attachedTo upstream).change hchange hbefore.driven
  invoked := hbefore.invoked.change hchange hbefore.driven
  sound := hbefore.sound.change hchange hbefore.driven
  calm := calm_change hchange hbefore

end Config.Coherent

namespace Pool

/-- The laws hold of a new pool. -/
theorem start_coherent (workers callers : ℕ) :
    (start workers callers : Pool Fn Value Error).config.Coherent where
  conserved := start_conserved workers callers
  driven := by
    rw [start_config]
    constructor <;> simp [start, completed, flag, made]
  handedOut := by
    rw [start_config]
    simp [Config.HandedOut, start, returned, flag, made]
  attachedTo := fun upstream => by
    rw [start_config]
    constructor <;> simp [start, occupied, attachments, flag]
  invoked := by
    rw [start_config]
    constructor <;> simp [start, continued, flag, made]
  sound := by
    rw [start_config]
    constructor
    · simp
    · constructor <;> simp [start]
  calm := by
    rw [start_config]
    simp

end Pool

end RpcDemo.Threadpool
