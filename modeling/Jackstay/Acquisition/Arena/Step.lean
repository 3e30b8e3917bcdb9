import Jackstay.Acquisition.Arena.Incarnation

/-!
The steps of one incarnation: what the consumer's process, its holder of grants,
the two cleanup owners and the producer's thread on this page may do next.

`Incarnation.step sh inc label` is one atomic access, `none` when the label is
not enabled. It reads the shared control and resource maps and changes this
incarnation only. After the recipient process has exited its objects stay in the
state as they were, and none of its threads moves again.
-/

namespace Jackstay.Acquisition

/-! ### Acquisition calls -/

/-- What an acquisition call does next. -/
inductive CallNext where
  | goto (pc : CallPc)
  | done (outcome : AcquireOutcome)
  | claimed (cursor index k : ℕ)
  deriving DecidableEq, Repr

/-- The oldest cursor an ordered or exact request may still acquire. -/
def oldestRetained (history latest first : ℕ) : ℕ := max (latest - (history - 1)) first

namespace AcquireCall

/-- Try the claim slots from `k` on. -/
def tryClaim (frames cursor index k : ℕ) : CallNext :=
  if k < frames then .goto (.claim cursor index k) else .done .holdingLimit

/-- `acquire_latest`, `acquire_next` and `acquire_exact` after the closed and
configured checks, before `FIRST_CURSOR` is loaded. -/
def checkLatest (request : Request) (latest : ℕ) : CallNext :=
  match request with
  | .latest after => if latest = 0 ∨ latest ≤ after then .done .empty else .goto (.first latest)
  | .next after => if latest = 0 ∨ latest ≤ after then .done .empty else .goto (.first latest)
  | .exact cursor => if latest < cursor then .done .empty else .goto (.first latest)

/-- The same calls once `FIRST_CURSOR` is loaded. -/
def checkFirst (history : ℕ) (request : Request) (latest first : ℕ) : CallNext :=
  match request with
  | .latest _ => if latest < first then .done .empty else .goto (.ring latest)
  | .next after =>
      let oldest := oldestRetained history latest first
      let cursor := if after = 0 then oldest else after + 1
      if cursor < oldest then .done (.gap cursor (oldest - 1))
      else if latest < cursor then .done .empty
      else .goto (.ring cursor)
  | .exact cursor =>
      if cursor < oldestRetained history latest first then .done (.miss cursor)
      else .goto (.ring cursor)

/-- One step of an acquisition call up to the exchange that publishes its claim.
`ring` asserts that its cursor is not zero. -/
def next (sh : Shared) (inc : Incarnation) (call : AcquireCall) : Option CallNext :=
  match call.pc with
  | .latest =>
      some <| if call.request = .exact 0
        then .done (.error (.configuration "frame cursors start at one"))
        else .goto (.active sh.control.latest)
  | .active latest =>
      some <| if inc.page.active = 0 then .done .closed else .goto (.terminal latest)
  | .terminal latest =>
      some <| if sh.control.terminal ≠ 0 then .done .closed else .goto (.configuration latest)
  | .configuration latest =>
      -- `is_configured`
      let generation := ((inc.consumer.bind Consumer.resources).bind inc.mappings).map
        Mapping.generation
      some <| if generation = some sh.control.configuration
        then checkLatest call.request latest
        else .done .reconfiguration
  | .first latest =>
      some (checkFirst sh.history call.request latest sh.control.firstCursor)
  | .ring cursor =>
      match (inc.consumer.bind Consumer.resources).bind inc.mappings with
      | none => none
      | some mapping =>
          let advertised := sh.ring cursor
          if cursor = 0 then none
          else some <| if advertised = 0 ∨
              (sh.maps mapping.generation).layout.resources < advertised
            then .done (.error (.mapping "advertised resource index is invalid"))
            else tryClaim inc.frames cursor (advertised - 1) 0
  | .claim cursor index k =>
      some <| if (inc.page.slot k).claim = 0 then .claimed cursor index k
        else tryClaim inc.frames cursor index (k + 1)

end AcquireCall

/-! ### Labels -/

/-- What may happen next on an incarnation. -/
inductive IncLabel where
  /-- the host exports the grant of a monitored process -/
  | exportGrant
  /-- `ConsumerGrant::from_parts` -/
  | importGrant
  /-- `ArenaConsumer::from_grant` -/
  | fromGrant (e : Env)
  | dropGrant
  /-- `ConfigurationGrant::into_parts` -/
  | exportOffer (m : ℕ)
  /-- `ConfigurationGrant::from_parts` -/
  | importOffer (m : ℕ)
  | dropOffer (m : ℕ)
  /-- `install_configuration` -/
  | install (m : ℕ)
  /-- `relinquish_configuration` -/
  | relinquish
  | dropConsumer
  /-- `bind_release_timeline` -/
  | bind (t : ℕ)
  /-- begin an acquisition call -/
  | begin (client : ℕ) (request : Request)
  /-- continue a call that has no claim yet -/
  | call (t : ℕ)
  /-- continue the acquisition or the release of a claim slot -/
  | use (k : ℕ) (e : Env)
  /-- drop a `FrameLease` -/
  | release (k : ℕ)
  /-- `FrameLease::defer_release`: take the retirement mutex -/
  | defer (k t value : ℕ) (e : Env)
  /-- `ConsumerReleaseTimeline::retry_cleanup` -/
  | retryRetirement
  /-- the retirement worker takes the mutex -/
  | workerPoll
  /-- `ArenaConsumer::wait`: arm -/
  | wait (observed : WaitEvents) (interest : WaitInterest)
  | waiter (e : Env)
  /-- continue a thread, and the sections under the two mutexes -/
  | thread (t : ℕ) (e : Env)
  | retire (e : Env)
  | observe (e : Env)
  /-- continue the producer's call on this page -/
  | host (e : Env)
  /-- the observer worker takes its mutex; its channel fails -/
  | observerPoll
  | observerFail
  /-- the recipient process ends -/
  | exit
  deriving DecidableEq, Repr

namespace Incarnation

/-- `Drop for ConsumerGrant`, after its file descriptors are closed. -/
def grantDrop : List ThreadOp :=
  [.owner (.clear 0 .offer), .owner .clearOffered, .page .close, .page .quiesce]

/-- Drop an unconsumed grant or offer in the process it is in. -/
def dropSetup (inc : Incarnation) (m : ℕ) (place : Place) (todo : List ThreadOp) :
    Option Incarnation :=
  match place with
  | .host => some ((inc.setTenant m .acknowledging).spawn .host todo)
  | .client =>
      if inc.exited then none else some ((inc.setTenant m .acknowledging).spawn .free todo)
  | .transit | .call => none

/-- A failed acquisition drops its claim before it returns. -/
def abandonUse (inc : Incarnation) (k : ℕ) (u : Use) (outcome : AcquireOutcome) : Incarnation :=
  inc.setUse k { u with pc := .returnPending, outcome := some outcome }

/-- What is left of `Claim::drop` once its claim word is cleared: the capacity
epoch, then the owner, then the lifetime. -/
def releaseTail (u : Use) : List ThreadOp :=
  [.page .epoch] ++ (u.owner.toList.map fun m => .owner (.drop m .lease)) ++ [.dropLifetime] ++
    (u.outcome.toList.map fun o => .ret ⟨u.client, u.request, o⟩)

/-- One step of `acquire` after the claim, of a lease's release, or of the copy of
the descriptor. -/
def useStep (sh : Shared) (e : Env) (inc : Incarnation) (k : ℕ) (u : Use) : Option Incarnation :=
  let map := sh.maps u.generation
  match u.pc with
  | .validate =>
      some <| if (map.records u.index).state ≠ 2 * u.cursor + 1
        then inc.abandonUse k u (.miss u.cursor)
        else inc.setUse k { u with pc := .active, validated := true }
  | .active =>
      some <| if inc.page.active = 0 then inc.abandonUse k u .closed
        else inc.setUse k { u with pc := .terminal }
  | .terminal =>
      some <| if sh.control.terminal ≠ 0 then inc.abandonUse k u .closed
        else inc.setUse k { u with pc := .configuration }
  | .configuration =>
      some <| if u.generation ≠ sh.control.configuration then inc.abandonUse k u .reconfiguration
        else inc.setUse k { u with pc := .describe }
  | .describe =>
      let descriptor := (map.records u.index).descriptor
      some <| if descriptor.cursor ≠ u.cursor ∨
          descriptor.payloadOffset ≠ map.layout.payloadOffset u.index ∨
          map.layout.payloadCapacity < descriptor.payloadLen
        then inc.abandonUse k u
          (.error (.mapping "leased descriptor contradicts resource identity or bounds"))
        else if sh.native ∧ e.fail
        then inc.abandonUse k u (.error (.mapping "attachment rejects the descriptor"))
        else
          let inc := inc.setUse k { u with pc := .leased, descriptor }
          { inc with returns := inc.returns ++ [⟨u.client, u.request, .frame descriptor⟩] }
  | .returnPending =>
      some <| ({ inc with page :=
        inc.page.modifySlot k fun w => { w with releasePending := 0 } } : Incarnation).setUse k
          { u with pc := .returnClaim }
  | .returnClaim =>
      some <| ({ inc with
        page := inc.page.modifySlot k fun w => { w with claim := 0 }
        uses := Function.update inc.uses k none } : Incarnation).spawn
          (if u.outcome.isSome then .call else .free) (releaseTail u)
  | .leased | .handing | .deferred => none

/-- One step of the loop of `wait`. `drain` reads at most 4096 bytes; a sleep also
ends early when the environment says so. -/
def waiterStep (sh : Shared) (e : Env) (inc : Incarnation) (w : Waiter) : Option Incarnation :=
  let goto (pc : WaiterPc) (read : WaitEvents) : Incarnation :=
    { inc with waiter := some { w with pc, read } }
  match w.pc with
  | .drain =>
      some <| if e.fail then goto (.disarm .error) w.read
        else
          { inc with
            wakeBytes := inc.wakeBytes - 4096
            waiter := some { w with pc := .cancelled, read := {} } }
  | .cancelled => some <| if e.broken then goto (.disarm .cancelled) w.read else goto .data w.read
  | .data => some <| goto .capacity { w.read with dataCursor := sh.control.latest }
  | .capacity =>
      some <| goto .reconfiguration { w.read with capacityEpoch := inc.page.capacityEpoch }
  | .reconfiguration =>
      some <| goto .active
        { w.read with reconfigurationEpoch := sh.control.reconfigurationEpoch }
  | .active =>
      some <| if inc.page.active = 0 then goto .decide { w.read with closed := true }
        else goto .terminal w.read
  | .terminal =>
      some <| goto .decide { w.read with closed := sh.control.terminal != 0 }
  | .decide =>
      some <| if w.interest.changed w.observed w.read then goto (.disarm (.changed w.read)) w.read
        else if e.broken then goto (.disarm .timedOut) w.read
        else goto .asleep w.read
  | .asleep =>
      if e.fail then some (goto (.disarm .error) w.read)
      else if inc.wakeBytes ≠ 0 ∨ e.skip then some (goto .drain w.read)
      else none
  | .disarm _ =>
      some { inc with
        page := { inc.page with waitInterest := fun _ => false }
        waiter := none }

/-- What a lease does when it takes the retirement mutex in `handoff`. A deadline
may have passed once the drain has begun. -/
def handoff (inc : Incarnation) (e : Env) (k t value : ℕ) (u : Use) (m : ℕ) : Incarnation :=
  if inc.empty = false ∧
      (inc.retirement.failure = true ∨ (inc.retirement.draining = true ∧ e.broken = true)) then
    { inc with rejected := inc.rejected ++ [.recoveryRequired] }
  else if (inc.retirement.slots k).isSome then
    { inc with rejected := inc.rejected ++ [retirementSlotInUse] }
  else
    { inc with
      uses := Function.update inc.uses k
        (some { u with owner := none, handoff := some (t + 1, value), pc := .handing })
      retirement := { inc.retirement with
        slots := Function.update inc.retirement.slots k (some ⟨m, t, value⟩)
        todo := [.storeId k (t + 1) value] } }

/-- Run the next operation of a thread. -/
def threadStep (sh : Shared) (e : Env) (inc : Incarnation) (t : ℕ) : Option Incarnation :=
  match inc.threads[t]? with
  | some ⟨op :: rest, role⟩ =>
      if inc.exited = true ∧ role ≠ .host then none
      else
        (op.exec sh e { inc with threads := inc.threads.set t ⟨rest, role⟩ }).map
          fun (inc, next) => { inc with threads := inc.threads.set t ⟨next ++ rest, role⟩ }
  | _ => none

/-- Run the next operation of the section under the retirement mutex. -/
def retireStep (e : Env) (inc : Incarnation) : Option Incarnation :=
  match inc.retirement.todo with
  | op :: rest =>
      if inc.exited then none
      else
        let inc := { inc with retirement := { inc.retirement with todo := rest } }
        let (inc, next) := op.exec e inc
        some { inc with retirement := { inc.retirement with todo := next ++ rest } }
  | [] => none

/-- Run the next operation of the section under the observer mutex. -/
def observeStep (native : Bool) (e : Env) (inc : Incarnation) : Option Incarnation :=
  match inc.observer.todo with
  | op :: rest =>
      let (inc, next) := op.exec native e inc
      some { inc with observer := { inc.observer with todo := next ++ rest } }
  | [] => none

/-- Run the next operation of the producer's call on this page. -/
def hostStep (e : Env) (inc : Incarnation) : Option Incarnation :=
  match inc.host with
  | op :: rest =>
      let (inc, next) := op.exec e inc
      some { inc with host := next ++ rest }
  | [] => none

/-- One step of a call that has no claim yet. -/
def callStep (sh : Shared) (inc : Incarnation) (t : ℕ) : Option Incarnation :=
  match inc.calls[t]? with
  | none => none
  | some call =>
      match call.next sh inc with
      | none => none
      | some (.goto pc) => some { inc with calls := inc.calls.set t { call with pc } }
      | some (.done outcome) =>
          some { inc with
            calls := inc.calls.eraseIdx t
            returns := inc.returns ++ [⟨call.client, call.request, outcome⟩] }
      | some (.claimed cursor index k) =>
          match inc.consumer.bind Consumer.resources with
          | none => none
          | some m =>
              match inc.mappings m with
              | none => none
              | some mapping =>
                  some { inc with
                    calls := inc.calls.eraseIdx t
                    page := inc.page.modifySlot k fun w => { w with claim := cursor }
                    uses := Function.update inc.uses k (some
                      { client := call.client
                        request := call.request
                        cursor
                        index
                        generation := mapping.generation
                        owner := some m }) }

/-- **One step of an incarnation.** -/
def step (sh : Shared) (inc : Incarnation) : IncLabel → Option Incarnation
  | .exportGrant =>
      match inc.mappings 0 with
      | some ⟨_, .grant .host⟩ => some (inc.setTenant 0 (.grant .transit))
      | _ => none
  | .importGrant =>
      -- the two words it checks are the grant's own until it is consumed
      match inc.mappings 0 with
      | some ⟨generation, .grant .transit⟩ =>
          if inc.exited = false ∧ inc.page.mappingSlot 0 = generation ∧
              inc.page.offeredGeneration = generation
          then some (inc.setTenant 0 (.grant .client)) else none
      | _ => none
  | .fromGrant e =>
      match inc.mappings 0 with
      | some ⟨_, .grant .client⟩ =>
          if inc.exited then none
          else if e.fail then inc.dropSetup 0 .client grantDrop
          else
            -- `Retirement::new` starts from the empty state that every incarnation begins with
            let inc := inc.setTenant 0 .mapped
            some (({ inc with
              consumer := some ⟨some 0⟩
              retirement := { inc.retirement with worker := true } } : Incarnation).spawn .consumer
                [.owner .clearOffered])
      | _ => none
  | .dropGrant =>
      match inc.mappings 0 with
      | some ⟨_, .grant place⟩ => inc.dropSetup 0 place grantDrop
      | _ => none
  | .exportOffer m =>
      match inc.mappings m with
      | some ⟨_, .offer .host⟩ =>
          if inc.remote then some (inc.setTenant m (.offer .transit)) else none
      | _ => none
  | .importOffer m =>
      match inc.mappings m with
      | some ⟨generation, .offer .transit⟩ =>
          if inc.exited = false ∧ inc.consumer.isSome ∧ inc.busy = false ∧
              inc.page.mappingSlot m = generation ∧ inc.page.offeredGeneration = generation
          then some (inc.setTenant m (.offer .client)) else none
      | _ => none
  | .dropOffer m =>
      match inc.mappings m with
      | some ⟨_, .offer place⟩ => inc.dropSetup m place ((offerDrop m).map .owner)
      | _ => none
  | .install m =>
      match inc.mappings m with
      | some ⟨_, .offer .client⟩ =>
          if inc.exited = false ∧ inc.consumer.isSome ∧ inc.busy = false ∧ inc.borrowed = false
          then some ((inc.setTenant m (.offer .call)).spawn .consumer [.installActive m])
          else none
      | _ => none
  | .relinquish =>
      if inc.exited = false ∧ inc.consumer.isSome ∧ inc.busy = false ∧ inc.borrowed = false then
        let todo : List ThreadOp :=
          match inc.consumer.bind Consumer.resources with
          | some m => [.owner (.drop m .consumer)]
          | none => []
        some (({ inc with consumer := some ⟨none⟩ } : Incarnation).spawn .consumer todo)
      else none
  | .dropConsumer =>
      if inc.exited = false ∧ inc.consumer.isSome ∧ inc.busy = false ∧ inc.borrowed = false then
        -- the fields drop in order: the lifetime before the resources
        let owner : List ThreadOp :=
          match inc.consumer.bind Consumer.resources with
          | some m => [.owner (.drop m .consumer)]
          | none => []
        some (({ inc with consumer := none } : Incarnation).spawn .free
          ([.enter .drain, .await, .dropLifetime] ++ owner))
      else none
  | .bind t =>
      if inc.exited = false ∧ inc.consumer.isSome ∧ inc.busy = false then
        some (inc.spawn .call [.bindRegistered t])
      else none
  | .begin client request =>
      if inc.exited = false ∧ inc.consumer.isSome ∧ inc.busy = false then
        some { inc with calls := inc.calls ++ [⟨client, request, .latest⟩] }
      else none
  | .call t => if inc.exited then none else inc.callStep sh t
  | .use k e =>
      match inc.uses k with
      | some u => if inc.exited then none else inc.useStep sh e k u
      | none => none
  | .release k =>
      match inc.uses k with
      | some u =>
          if inc.exited = false ∧ u.pc = .leased then
            some (inc.setUse k { u with pc := .returnPending })
          else none
      | none => none
  | .defer k t value e =>
      match inc.uses k with
      | some u =>
          match u.owner with
          | some m =>
              if inc.exited = false ∧ u.pc = .leased ∧ inc.retirement.sources t = true ∧
                  inc.retirement.todo = []
              then some (inc.handoff e k t value u m) else none
          | none => none
      | none => none
  | .retryRetirement =>
      if inc.exited = false ∧ inc.retirement.todo = [] then
        some { inc with retirement := { inc.retirement with failure := false } }
      else none
  | .workerPoll =>
      if inc.exited = false ∧ inc.retirement.worker = true ∧ inc.retirement.todo = [] then
        some { inc with retirement := { inc.retirement with todo := [.poll, .workerCheck] } }
      else none
  | .wait observed interest =>
      if inc.exited = false ∧ inc.consumer.isSome ∧ inc.busy = false ∧ inc.borrowed = false then
        some { inc with
          page := { inc.page with waitInterest := interest.armed }
          waiter := some { observed, interest } }
      else none
  | .waiter e =>
      match inc.waiter with
      | some w => if inc.exited then none else inc.waiterStep sh e w
      | none => none
  | .thread t e => inc.threadStep sh e t
  | .retire e => inc.retireStep e
  | .observe e => inc.observeStep sh.native e
  | .host e => inc.hostStep e
  | .observerPoll =>
      if inc.observer.present = true ∧ inc.observer.worker = true ∧ inc.observer.todo = [] then
        some { inc with observer := { inc.observer with todo := [.process] } }
      else none
  | .observerFail =>
      if inc.observer.present = true ∧ inc.observer.worker = true ∧ inc.observer.todo = [] then
        some { inc with observer := { inc.observer with
          worker := false, failure := true, notificationFailed := true
          todo := [.page .close] } }
      else none
  | .exit => if inc.remote = true ∧ inc.exited = false then some { inc with exited := true } else none

end Incarnation

end Jackstay.Acquisition
