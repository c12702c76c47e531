import RpcDemo.Detail.LateReplies

/-!
# What a call hears

From clearing the slot on, a call hears consecutive messages.  Messages come
only in answer to requests, so if no other call clears the slot or writes in the
meantime, and the first message answers the call's own request, it is the only
one, and the call returns what it makes of it.
-/

namespace RpcDemo

open RpcDemo.Frame
open RpcDemo.Proto

namespace Client

/-- A message comes only while a request is unanswered. -/
def Solicited (client : Client) : Event → Prop
  | .deliver _ => client.delivered.length < client.written.length
  | _ => True

/-- The first message delivered since the call cleared the slot answers its own
request.  Messages come in the order of the requests they answer. -/
structure AnsweredFirst (client : Client) (index : ℕ) (call : CallState) : Prop where
  heard : call.heard ≠ []
  own : client.written[call.clearedAt]? = some index

structure WindowInv (index : ℕ) (client : Client) : Prop where
  slot : SlotInv index client
  counted : client.delivered.length ≤ client.written.length
  nodup : client.written.Nodup
  written : ∀ position ∈ client.written, ∃ call : CallState,
    client.calls[position]? = some call ∧ (call.phase = .waiting ∨ call.Finished)
  last : ∀ call : CallState, client.calls[index]? = some call → call.phase = .waiting →
    client.written.getLast? = some index
  within : ∀ call : CallState, client.calls[index]? = some call → call.InSlot →
    call.clearedAt ≤ client.delivered.length ∧
      client.delivered.drop call.clearedAt = call.heard
  heard : ∀ call : CallState, client.calls[index]? = some call → call.Finished →
    call.heard <+: client.delivered.drop call.clearedAt
  single : ∀ call : CallState, client.calls[index]? = some call →
    client.written[call.clearedAt]? = some index → call.heard.length ≤ 1

theorem windowInv_start (index : ℕ) : WindowInv index start where
  slot := slotInv_start index
  counted := le_refl 0
  nodup := List.nodup_nil
  written := by simp [start]
  last := by simp [start]
  within := by simp [start]
  heard := by simp [start]
  single := by simp [start]

/-- The last request written is that of the waiting call. -/
theorem position_of_last {written : List ℕ} {index position : ℕ} (hnodup : written.Nodup)
    (hlast : written.getLast? = some index) (hposition : written[position]? = some index) :
    position + 1 = written.length := by
  have hlt := (List.getElem?_eq_some_iff.mp hposition).1
  rw [List.getLast?_eq_getElem?] at hlast
  have hsame := (List.getElem?_inj hlt hnodup).mp (hposition.trans hlast.symm)
  omega

theorem length_calls_step {client next : Client} {event : Event}
    (hstep : client.step event = some next) : client.calls.length ≤ next.calls.length := by
  cases stepped_of_step hstep with
  | call method args => simp [Client.call]
  | turn index turn call moved hcall hturned => simp [advance]
  | deliver data => simp [onMessage]

section Steps

variable {index : ℕ} {client next : Client} {event : Event}

/-- A call that waits or is over goes on doing so. -/
theorem written_after (hstep : client.step event = some next) {index : ℕ}
    (hwritten : ∃ call : CallState, client.calls[index]? = some call ∧
      (call.phase = .waiting ∨ call.Finished)) :
    ∃ moved : CallState, next.calls[index]? = some moved ∧
      (moved.phase = .waiting ∨ moved.Finished) := by
  obtain ⟨call, hcall, hphase⟩ := hwritten
  have hlt := (List.getElem?_eq_some_iff.mp hcall).1
  have hnext : index < next.calls.length := Nat.lt_of_lt_of_le hlt (length_calls_step hstep)
  refine ⟨next.calls[index], List.getElem?_eq_getElem hnext, ?_⟩
  generalize hmoved : next.calls[index] = moved
  have hmoved' : next.calls[index]? = some moved := hmoved ▸ List.getElem?_eq_getElem hnext
  cases became_of_step hstep hmoved' with
  | begun method args hindex => omega
  | heard data before hbefore =>
      obtain rfl := Option.some.inj (hcall.symm.trans hbefore)
      exact hphase
  | kept _ _ hbefore hturn hdeliver =>
      obtain rfl := Option.some.inj (hcall.symm.trans hbefore)
      exact hphase
  | turned turn before moved hbefore hturned =>
      obtain rfl := Option.some.inj (hcall.symm.trans hbefore)
      cases hturned with
      | pass hnumbered => simp [hnumbered, CallState.Finished] at hphase
      | refuse hnumbered => simp [hnumbered, CallState.Finished] at hphase
      | clear hchecked => simp [hchecked, CallState.Finished] at hphase
      | write hcleared => exact .inl rfl
      | wake hwaiting hreceived => exact .inr ⟨_, rfl⟩
      | expire htimer => exact hphase
      | giveUp hwaiting htimer hreceived => exact .inr ⟨_, rfl⟩

theorem not_mem_written (hinv : WindowInv index client) {position : ℕ} {call : CallState}
    (hcall : client.calls[position]? = some call) (hphase : call.phase = .cleared) :
    position ∉ client.written := by
  intro hmem
  obtain ⟨other, hother, hwritten⟩ := hinv.written position hmem
  obtain rfl := Option.some.inj (hcall.symm.trans hother)
  simp [hphase, CallState.Finished] at hwritten

theorem written_step (hinv : WindowInv index client) (hstep : client.step event = some next) :
    ∀ position ∈ next.written, ∃ call : CallState,
      next.calls[position]? = some call ∧ (call.phase = .waiting ∨ call.Finished) := by
  intro position hmem
  by_cases hbefore : position ∈ client.written
  · exact written_after hstep (hinv.written position hbefore)
  · cases stepped_of_step hstep with
    | call method args => exact absurd hmem hbefore
    | deliver data => exact absurd hmem hbefore
    | turn taken turn call moved hcall hturned =>
        cases hturned with
        | write hphase =>
            simp only [advance, if_true, List.mem_append, List.mem_singleton] at hmem
            obtain rfl := hmem.resolve_left hbefore
            have hlt := (List.getElem?_eq_some_iff.mp hcall).1
            exact ⟨_, List.getElem?_set_self hlt, .inl rfl⟩
        | _ => exact absurd hmem hbefore

theorem nodup_step (hinv : WindowInv index client) (hstep : client.step event = some next) :
    next.written.Nodup := by
  cases stepped_of_step hstep with
  | call method args => exact hinv.nodup
  | deliver data => exact hinv.nodup
  | turn index turn call moved hcall hturned =>
      cases hturned with
      | write hphase =>
          have hnew := not_mem_written hinv hcall hphase
          simp only [advance, if_true]
          exact List.nodup_append.mpr ⟨hinv.nodup, List.nodup_singleton index,
            fun other hother _ hindex heq => hnew (by simp_all)⟩
      | _ => exact hinv.nodup

theorem written_of_step (hstep : client.step event = some next) :
    next.written =
      match event with
      | .turn index .write => client.written ++ [index]
      | _ => client.written := by
  cases stepped_of_step hstep with
  | call method args => rfl
  | deliver data => rfl
  | turn index turn call moved hcall hturned => cases hturned <;> rfl

theorem written_before (hstep : client.step event = some next) {index position : ℕ}
    (hposition : next.written[position]? = some index) :
    client.written[position]? = some index ∨
      event = .turn index .write ∧ position = client.written.length := by
  cases stepped_of_step hstep with
  | call method args => exact .inl hposition
  | deliver data => exact .inl hposition
  | turn writer turn call moved hcall hturned =>
      cases hturned with
      | write hphase =>
          simp only [advance, if_true, List.getElem?_append] at hposition
          split at hposition
          · exact .inl hposition
          · rw [List.getElem?_singleton, Option.ite_none_right_eq_some,
              Option.some.injEq] at hposition
            obtain ⟨hend, rfl⟩ := hposition
            exact .inr ⟨rfl, by omega⟩
      | _ => exact .inl hposition

/-- While the call at `index` uses the slot, no other request is written. -/
theorem written_of_alone (halone : client.Alone index event)
    (hstep : client.step event = some next) {call : CallState}
    (hcall : client.calls[index]? = some call) (hin : call.InSlot)
    (hturn : ∀ turn, event ≠ .turn index turn) : next.written = client.written := by
  cases stepped_of_step hstep with
  | call method args => rfl
  | deliver data => rfl
  | turn writer turn other moved hother hturned =>
      cases hturned with
      | write hphase =>
          have hne : writer ≠ index := by
            rintro rfl
            exact hturn .write rfl
          exact absurd hin (halone hne call hcall)
      | _ => rfl

theorem last_step (hinv : WindowInv index client) (halone : client.Alone index event)
    (hstep : client.step event = some next) {moved : CallState}
    (hmoved : next.calls[index]? = some moved)
    (hphase : moved.phase = .waiting) : next.written.getLast? = some index := by
  have hgrown := written_of_step hstep
  cases became_of_step hstep hmoved with
  | begun method args hindex => simp [CallState.begin] at hphase
  | heard data call hcall =>
      rw [hgrown]
      exact hinv.last call hcall hphase
  | kept _ _ hcall hturn hdeliver =>
      rw [written_of_alone halone hstep hcall (.inr hphase) hturn]
      exact hinv.last moved hcall hphase
  | turned turn call moved hcall hturned =>
      cases hturned with
      | write hcleared => simp [hgrown]
      | expire htimer =>
          rw [hgrown]
          exact hinv.last call hcall hphase
      | pass => simp at hphase
      | refuse => simp at hphase
      | clear => simp at hphase
      | wake => simp at hphase
      | giveUp => simp at hphase

theorem within_step (hinv : WindowInv index client) (hstep : client.step event = some next)
    {moved : CallState} (hmoved : next.calls[index]? = some moved)
    (hin : moved.InSlot) : moved.clearedAt ≤ next.delivered.length ∧
      next.delivered.drop moved.clearedAt = moved.heard := by
  have hgrown := delivered_step hstep
  cases became_of_step hstep hmoved with
  | begun method args hindex => exact absurd hin (by simp [CallState.InSlot, CallState.begin])
  | heard data call hcall =>
      have hin' : call.InSlot := hin
      obtain ⟨hle, hdrop⟩ := hinv.within call hcall hin'
      have hclearedAt : (call.hear data).clearedAt = call.clearedAt := rfl
      rw [hgrown, hclearedAt, List.drop_append_of_le_length hle, hdrop, List.length_append]
      exact ⟨Nat.le_add_right_of_le hle, by simp [CallState.hear, hin']⟩
  | kept _ _ hcall hturn hdeliver =>
      have hsame : next.delivered = client.delivered := by
        cases event with
        | deliver data => exact absurd rfl (hdeliver data)
        | _ => simpa using hgrown
      rw [hsame]
      exact hinv.within moved hcall hin
  | turned turn call moved hcall hturned =>
      rw [List.append_nil] at hgrown
      rw [hgrown]
      cases hturned with
      | clear hphase =>
          have htimed := hinv.slot.inv.timed index call hcall
          simp only [CallState.WellTimed, hphase] at htimed
          simp [htimed.2.1]
      | write hphase => exact hinv.within call hcall (.inl hphase)
      | expire htimer => exact hinv.within call hcall hin
      | pass => exact absurd hin (by simp [CallState.InSlot])
      | refuse => exact absurd hin (by simp [CallState.InSlot])
      | wake => exact absurd hin (by simp [CallState.InSlot])
      | giveUp => exact absurd hin (by simp [CallState.InSlot])

theorem heard_step (hinv : WindowInv index client) (hstep : client.step event = some next)
    {moved : CallState} (hmoved : next.calls[index]? = some moved)
    (hfinished : moved.Finished) : moved.heard <+: next.delivered.drop moved.clearedAt := by
  have hgrown : client.delivered.drop moved.clearedAt <+:
      next.delivered.drop moved.clearedAt := by
    rw [delivered_step hstep, List.drop_append]
    exact List.prefix_append _ _
  refine List.IsPrefix.trans ?_ hgrown
  cases became_of_step hstep hmoved with
  | begun method args hindex => exact List.nil_prefix
  | heard data call hcall =>
      have hout : ¬ call.InSlot := fun hin => hin.not_finished hfinished
      have hheard : (call.hear data).heard = call.heard := by simp [CallState.hear, hout]
      rw [hheard]
      exact hinv.heard call hcall hfinished
  | kept _ _ hcall hturn hdeliver => exact hinv.heard moved hcall hfinished
  | turned turn call moved hcall hturned =>
      cases hturned with
      | refuse hphase =>
          have htimed := hinv.slot.inv.timed index call hcall
          simp only [CallState.WellTimed, hphase] at htimed
          simp [htimed.2.1]
      | wake hphase hreceived => simp [(hinv.within call hcall (.inr hphase)).2]
      | giveUp hphase htimer hreceived =>
          simp [(hinv.within call hcall (.inr hphase)).2]
      | expire htimer => exact hinv.heard call hcall hfinished
      | pass => exact absurd hfinished (by simp [CallState.Finished])
      | clear => exact absurd hfinished (by simp [CallState.Finished])
      | write => exact absurd hfinished (by simp [CallState.Finished])

/-- While a request is unanswered, a call in the slot that is answered first has
heard nothing yet. -/
theorem heard_eq_nil (hinv : WindowInv index client) {call : CallState}
    (hcall : client.calls[index]? = some call) (hin : call.InSlot)
    (hown : client.written[call.clearedAt]? = some index)
    (hsolicited : client.delivered.length < client.written.length) : call.heard = [] := by
  obtain ⟨other, hother, hwritten⟩ := hinv.written index (List.mem_of_getElem? hown)
  obtain rfl := Option.some.inj (hcall.symm.trans hother)
  have hwaiting := hwritten.resolve_right hin.not_finished
  have hlast := hinv.last call hcall hwaiting
  have hposition := position_of_last hinv.nodup hlast hown
  rw [← (hinv.within call hcall hin).2]
  exact List.drop_eq_nil_of_le (by omega)

theorem single_step (hinv : WindowInv index client) (hsolicited : client.Solicited event)
    (hstep : client.step event = some next) {moved : CallState}
    (hmoved : next.calls[index]? = some moved)
    (hown : next.written[moved.clearedAt]? = some index) : moved.heard.length ≤ 1 := by
  have hbefore := written_before hstep hown
  cases became_of_step hstep hmoved with
  | begun method args hindex => simp [CallState.begin]
  | heard data call hcall =>
      have hown' : client.written[call.clearedAt]? = some index :=
        hbefore.resolve_right (by simp)
      by_cases hin : call.InSlot
      · have hnil := heard_eq_nil hinv hcall hin hown' hsolicited
        simp [CallState.hear, hin, hnil]
      · simpa [CallState.hear, hin] using hinv.single call hcall hown'
  | kept _ _ hcall hturn hdeliver =>
      exact hinv.single moved hcall
        (hbefore.resolve_right fun hwrite => hturn .write hwrite.1)
  | turned turn call moved hcall hturned =>
      cases hturned with
      | clear hphase =>
          have htimed := hinv.slot.inv.timed index call hcall
          simp only [CallState.WellTimed, hphase] at htimed
          simp [htimed.2.1]
      | write hphase =>
          have hnew := not_mem_written hinv hcall hphase
          have hend : call.clearedAt = client.written.length :=
            (hbefore.resolve_left fun hold => hnew (List.mem_of_getElem? hold)).2
          have hcounted := hinv.counted
          have hnil : client.delivered.drop call.clearedAt = [] :=
            List.drop_eq_nil_of_le (by omega)
          simp [← (hinv.within call hcall (.inl hphase)).2, hnil]
      | _ => exact hinv.single call hcall (hbefore.resolve_right (by simp))

theorem counted_step (hinv : WindowInv index client) (hsolicited : client.Solicited event)
    (hstep : client.step event = some next) : next.delivered.length ≤ next.written.length := by
  have hcounted := hinv.counted
  cases stepped_of_step hstep with
  | call method args => exact hcounted
  | deliver data =>
      simp only [onMessage, List.length_append, List.length_singleton]
      exact hsolicited
  | turn index turn call moved hcall hturned =>
      simp only [advance]
      split
      · simp only [List.length_append, List.length_singleton]
        omega
      · exact hcounted

theorem windowInv_step (hinv : WindowInv index client) (halone : client.Alone index event)
    (hsolicited : client.Solicited event) (hstep : client.step event = some next) :
    WindowInv index next where
  slot := slotInv_step hinv.slot halone hstep
  counted := counted_step hinv hsolicited hstep
  nodup := nodup_step hinv hstep
  written := written_step hinv hstep
  last _ hmoved hphase := last_step hinv halone hstep hmoved hphase
  within _ hmoved hin := within_step hinv hstep hmoved hin
  heard _ hmoved hfinished := heard_step hinv hstep hmoved hfinished
  single _ hmoved hown := single_step hinv hsolicited hstep hmoved hown

end Steps

/-- A call answered first has heard exactly the message that answers it. -/
theorem WindowInv.heard_of_answeredFirst {index : ℕ} {client : Client}
    (hinv : WindowInv index client) {call : CallState} (hcall : client.calls[index]? = some call)
    (hfirst : client.AnsweredFirst index call) :
    ∃ data, call.heard = [data] ∧ client.delivered[call.clearedAt]? = some data := by
  obtain ⟨other, hother, hwritten⟩ := hinv.written index (List.mem_of_getElem? hfirst.own)
  obtain rfl := Option.some.inj (hcall.symm.trans hother)
  have hsingle := hinv.single call hcall hfirst.own
  have hwindow : call.heard <+: client.delivered.drop call.clearedAt := by
    rcases hwritten with hwaiting | hfinished
    · rw [(hinv.within call hcall (.inr hwaiting)).2]
    · exact hinv.heard call hcall hfinished
  cases hheard : call.heard with
  | nil => exact absurd hheard hfirst.heard
  | cons data rest =>
      rw [hheard] at hsingle hwindow
      have hrest : rest = [] := List.eq_nil_of_length_eq_zero (by simpa using hsingle)
      obtain ⟨later, hlater⟩ := hwindow
      refine ⟨data, by rw [hrest], ?_⟩
      have hfirstOf : (client.delivered.drop call.clearedAt)[0]? = some data := by
        rw [← hlater]
        rfl
      rwa [List.getElem?_drop, Nat.add_zero] at hfirstOf

/-- It returns what it makes of that message, or is about to. -/
theorem WindowInv.result_of_answeredFirst {index : ℕ} {client : Client}
    (hinv : WindowInv index client) (proto : Protobuf) {call : CallState}
    (hcall : client.calls[index]? = some call) {data : Payload} (hheard : call.heard = [data])
    (hown : client.written[call.clearedAt]? = some index) :
    call.result proto =
        some (ClientStub.checkResponse proto call.method call.id data) ∨
      call.phase = .waiting ∧ client.slot = ⟨data, true⟩ := by
  obtain ⟨other, hother, hwritten⟩ := hinv.written index (List.mem_of_getElem? hown)
  obtain rfl := Option.some.inj (hcall.symm.trans hother)
  rcases hwritten with hwaiting | ⟨response, hphase⟩
  · right
    have hslot := hinv.slot.slot call hcall (.inr hwaiting)
    rw [hheard] at hslot
    exact ⟨hwaiting, hslot⟩
  · left
    have hcopied := hinv.slot.copied call response hcall hphase
    rw [hheard] at hcopied
    obtain rfl : some data = response := hcopied
    rw [CallState.result, hphase]
    rfl

end Client

end RpcDemo
