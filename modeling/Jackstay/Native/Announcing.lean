import Jackstay.Native.ControlEvents

/-!
What the control events tell a consumer of native frames.

* `FtNativeAttach.Tells`: the events of an attach, delivered or still queued, against the pools
  that it knows and the change it has seen last. Every poll keeps it.
* `control_events_ordered`: in every run a pool is announced once, a pool that is taken back was
  the current one, and the generations of the changes increase.
* `OnePool`: frames of one config name one pool. A push keeps this if a frame from another pool
  brings other stream values (`Watch.Renews`).
* `control_events_announce`: then a poll that finds nothing new leaves the consumer with the
  generation of the page, and no frame whose pool it does not know.
-/

namespace Jackstay.Native

open Seqlock Transition Video

/-! ### The events of an attach -/

/-- The pools that these events have added. -/
def addedPools (events : List FtNativeEvent) : List ℕ :=
  (events.filter fun e => e.kind = .poolAdded).map (·.poolId)

/-- The changes of the stream among these events. -/
def configChanges (events : List FtNativeEvent) : List FtNativeEvent :=
  events.filter fun e => e.kind = .streamConfigChanged

/-- The pool of the stream before this generation: that of the last change, or of the grant. -/
def poolBefore (pools : List ℕ) (events : List FtNativeEvent) (generation : ℕ) : ℕ :=
  (((configChanges events).filter fun e => e.configGeneration < generation).getLast?.map
    (·.poolId)).getD (pools.head?.getD 0)

lemma addedPools_concat (events : List FtNativeEvent) (e : FtNativeEvent) :
    addedPools (events ++ [e]) =
      addedPools events ++ if e.kind = .poolAdded then [e.poolId] else [] := by
  rw [addedPools, addedPools, List.filter_append, List.map_append]
  by_cases h : e.kind = .poolAdded
  · simp [h]
  · simp [h]

lemma configChanges_concat (events : List FtNativeEvent) (e : FtNativeEvent) :
    configChanges (events ++ [e]) =
      configChanges events ++ if e.kind = .streamConfigChanged then [e] else [] := by
  rw [configChanges, configChanges, List.filter_append]
  by_cases h : e.kind = .streamConfigChanged
  · simp [h]
  · simp [h]

/-- An event that is not a change of the stream leaves its pool alone. -/
lemma poolBefore_concat_of_ne (pools : List ℕ) (events : List FtNativeEvent) {e : FtNativeEvent}
    (h : e.kind ≠ .streamConfigChanged) (generation : ℕ) :
    poolBefore pools (events ++ [e]) generation = poolBefore pools events generation := by
  rw [poolBefore, configChanges_concat, if_neg h, List.append_nil]
  rfl

/-- A change shows from its generation on. -/
lemma poolBefore_concat (pools : List ℕ) (events : List FtNativeEvent) {e : FtNativeEvent}
    (h : e.kind = .streamConfigChanged) (generation : ℕ) :
    poolBefore pools (events ++ [e]) generation =
      if e.configGeneration < generation then e.poolId
      else poolBefore pools events generation := by
  rw [poolBefore, configChanges_concat, if_pos h, List.filter_append]
  by_cases hlt : e.configGeneration < generation
  · simp [hlt]
  · simp [hlt, poolBefore]

/-- Past the last change the pool stays. -/
lemma poolBefore_of_lt {pools : List ℕ} {events : List FtNativeEvent} {g g' : ℕ}
    (h : ∀ e ∈ configChanges events, e.configGeneration < g) (hle : g ≤ g') :
    poolBefore pools events g' = poolBefore pools events g := by
  have hall : ∀ g₀, g ≤ g₀ →
      (configChanges events).filter (fun e => e.configGeneration < g₀) = configChanges events := by
    intro g₀ hg₀
    rw [List.filter_eq_self]
    intro e he
    have hlt := h e he
    simp only [decide_eq_true_eq]
    omega
  rw [poolBefore, poolBefore, hall g le_rfl, hall g' hle]

/-- An event against those before it: a pool that is taken back was the current one, and a change
of the stream names a pool that the consumer knows. -/
structure FtNativeEvent.Fits (pools : List ℕ) (before : List FtNativeEvent) (e : FtNativeEvent) :
    Prop where
  removed : e.kind = .poolRemoved → e.poolId = poolBefore pools before e.configGeneration
  changed : e.kind = .streamConfigChanged → e.poolId ∈ pools ++ addedPools before

/-- Every event fits those before it. -/
def InOrder (pools : List ℕ) (events : List FtNativeEvent) : Prop :=
  ∀ i (e : FtNativeEvent), events[i]? = some e → e.Fits pools (events.take i)

lemma InOrder.concat {pools : List ℕ} {events : List FtNativeEvent} {e : FtNativeEvent}
    (h : InOrder pools events) (he : e.Fits pools events) : InOrder pools (events ++ [e]) := by
  intro i x hx
  rcases Nat.lt_or_ge i events.length with hlt | hge
  · rw [List.getElem?_append_left hlt] at hx
    rw [List.take_append_of_le_length (by omega)]
    exact h i x hx
  · rw [List.getElem?_append_right hge] at hx
    obtain ⟨hi, rfl⟩ : i - events.length = 0 ∧ e = x := by
      rcases Nat.eq_zero_or_pos (i - events.length) with h0 | hpos
      · rw [h0] at hx
        exact ⟨h0, Option.some.inj hx⟩
      · rw [List.getElem?_eq_none (by rw [List.length_singleton]; omega)] at hx
        cases hx
    have hi' : i = events.length := by omega
    rw [hi', List.take_append_of_le_length le_rfl, List.take_length]
    exact he

lemma InOrder.of_append {pools : List ℕ} {events more : List FtNativeEvent}
    (h : InOrder pools (events ++ more)) : InOrder pools events := by
  intro i e he
  have hlt : i < events.length := (List.getElem?_eq_some_iff.mp he).1
  have hfits := h i e (by rw [List.getElem?_append_left hlt]; exact he)
  rwa [List.take_append_of_le_length (by omega)] at hfits

namespace FtNativeAttach

/-- **What an attach has told**, in the events that it has delivered or queued. -/
structure Tells (a : FtNativeAttach) (told : List FtNativeEvent) : Prop where
  added : addedPools told = a.dynamicPools
  once : (a.pools ++ a.dynamicPools).Nodup
  increasing : (configChanges told).Pairwise fun e e' => e.configGeneration < e'.configGeneration
  last : ∀ e ∈ configChanges told, e.configGeneration ≤ a.lastEventConfigGeneration
  latest : ∀ e ∈ (configChanges told).getLast?, e.configGeneration = a.lastEventConfigGeneration
  current : poolBefore a.pools told (a.lastEventConfigGeneration + 1) = a.lastEventPoolId
  inOrder : InOrder a.pools told

/-- Up to its read a poll learns nothing of the stream. -/
lemma beginPoll_frame (a : FtNativeAttach) (peerClosed : Bool) :
    (a.beginPoll peerClosed).1.pools = a.pools ∧
      (a.beginPoll peerClosed).1.dynamicPools = a.dynamicPools ∧
      (a.beginPoll peerClosed).1.lastEventConfigGeneration = a.lastEventConfigGeneration := by
  rw [FtNativeAttach.beginPoll]
  split
  · exact ⟨rfl, rfl, rfl⟩
  · dsimp only
    split_ifs
    · exact ⟨rfl, rfl, rfl⟩
    · exact ⟨rfl, rfl, rfl⟩

namespace Tells

variable {a a' : FtNativeAttach} {told : List FtNativeEvent}

/-- Nothing has been told yet. -/
lemma fromUnixSocket {pools : List ℕ} (h : pools.Nodup) (generation : ℕ) :
    (FtNativeAttach.fromUnixSocket pools generation).Tells [] := by
  refine ⟨rfl, ?_, .nil, (by rintro _ ⟨⟩), (by rintro _ ⟨⟩), rfl, (by rintro _ _ ⟨⟩)⟩
  rw [FtNativeAttach.fromUnixSocket, List.append_nil]
  exact h

/-- What the attach is about to say does not depend on the queue. -/
lemma of_same (h : a.Tells told) (hpools : a'.pools = a.pools)
    (hdynamic : a'.dynamicPools = a.dynamicPools)
    (hgeneration : a'.lastEventConfigGeneration = a.lastEventConfigGeneration)
    (hpool : a'.lastEventPoolId = a.lastEventPoolId) : a'.Tells told := by
  refine ⟨?_, ?_, h.increasing, ?_, ?_, ?_, ?_⟩
  · rw [hdynamic]
    exact h.added
  · rw [hpools, hdynamic]
    exact h.once
  · rw [hgeneration]
    exact h.last
  · rw [hgeneration]
    exact h.latest
  · rw [hpools, hgeneration, hpool]
    exact h.current
  · rw [hpools]
    exact h.inOrder

/-- Before a later change the current pool is that of the last event. -/
lemma poolBefore_eq (h : a.Tells told) {generation : ℕ}
    (hlt : a.lastEventConfigGeneration < generation) :
    poolBefore a.pools told generation = a.lastEventPoolId :=
  (poolBefore_of_lt (fun e he => Nat.lt_succ_of_le (h.last e he)) hlt).trans h.current

/-- An event that neither adds a pool nor changes the stream. -/
lemma silent (h : a.Tells told) {e : FtNativeEvent} (hadded : e.kind ≠ .poolAdded)
    (hchanged : e.kind ≠ .streamConfigChanged)
    (hremoved : e.kind = .poolRemoved →
      e.poolId = poolBefore a.pools told e.configGeneration) : a.Tells (told ++ [e]) := by
  refine ⟨?_, h.once, ?_, ?_, ?_, ?_, h.inOrder.concat ⟨hremoved, fun he => absurd he hchanged⟩⟩
  · rw [addedPools_concat, if_neg hadded, List.append_nil]
    exact h.added
  · rw [configChanges_concat, if_neg hchanged, List.append_nil]
    exact h.increasing
  · rw [configChanges_concat, if_neg hchanged, List.append_nil]
    exact h.last
  · rw [configChanges_concat, if_neg hchanged, List.append_nil]
    exact h.latest
  · rw [poolBefore_concat_of_ne _ _ hchanged]
    exact h.current

/-- A pool is announced that the consumer has just fetched. -/
lemma add (h : a.Tells told) {poolId : ℕ} (hnew : a.knownPool poolId = none) (generation : ℕ) :
    (a.importLinuxPool poolId).Tells (told ++ [⟨.poolAdded, poolId, generation⟩]) := by
  have hfresh : poolId ∉ a.pools ++ a.dynamicPools := by
    intro hmem
    have hnone := List.find?_eq_none.mp hnew poolId hmem
    simp at hnone
  refine ⟨?_, ?_, ?_, ?_, ?_, ?_, ?_⟩
  · rw [addedPools_concat, h.added]
    rfl
  · show (a.pools ++ (a.dynamicPools ++ [poolId])).Nodup
    rw [← List.append_assoc]
    exact List.nodup_append.mpr ⟨h.once, List.nodup_singleton _,
      fun x hx y hy hxy => hfresh (List.mem_singleton.mp hy ▸ hxy ▸ hx)⟩
  · rw [configChanges_concat, if_neg (by rintro ⟨⟩), List.append_nil]
    exact h.increasing
  · rw [configChanges_concat, if_neg (by rintro ⟨⟩), List.append_nil]
    exact h.last
  · rw [configChanges_concat, if_neg (by rintro ⟨⟩), List.append_nil]
    exact h.latest
  · rw [poolBefore_concat_of_ne _ _ (by rintro ⟨⟩)]
    exact h.current
  · exact h.inOrder.concat ⟨by rintro ⟨⟩, by rintro ⟨⟩⟩

/-- The stream changes to a pool that the consumer knows. -/
lemma change (h : a.Tells told) {poolId generation : ℕ} (hknown : poolId ∈ a.pools ++ a.dynamicPools)
    (hlt : a.lastEventConfigGeneration < generation) :
    ({ a with
      lastEventConfigGeneration := generation
      lastEventPoolId := poolId } : FtNativeAttach).Tells
        (told ++ [⟨.streamConfigChanged, poolId, generation⟩]) := by
  refine ⟨?_, h.once, ?_, ?_, ?_, ?_, h.inOrder.concat ⟨by rintro ⟨⟩, fun _ => ?_⟩⟩
  · rw [addedPools_concat, if_neg (by rintro ⟨⟩), List.append_nil]
    exact h.added
  · rw [configChanges_concat, if_pos rfl]
    refine List.pairwise_append.mpr ⟨h.increasing, List.pairwise_singleton _ _, ?_⟩
    intro e he e' he'
    rw [List.mem_singleton] at he'
    rw [he']
    exact Nat.lt_of_le_of_lt (h.last e he) hlt
  · rw [configChanges_concat, if_pos rfl]
    intro e he
    rcases List.mem_append.mp he with he | he
    · exact (h.last e he).trans hlt.le
    · rw [List.mem_singleton.mp he]
  · rw [configChanges_concat, if_pos rfl, List.getLast?_concat]
    rintro e ⟨⟩
    rfl
  · rw [poolBefore_concat _ _ rfl, if_pos (Nat.lt_succ_self _)]
  · rw [h.added]
    exact hknown

/-- The current pool is taken back, in an event of a later change. -/
lemma takeBack (h : a.Tells told) {generation : ℕ} (hlt : a.lastEventConfigGeneration < generation) :
    a.Tells (told ++ [⟨.poolRemoved, a.lastEventPoolId, generation⟩]) :=
  h.silent (by rintro ⟨⟩) (by rintro ⟨⟩) fun _ => (h.poolBefore_eq hlt).symm

/-- **Up to its read a poll** delivers what is queued, or says that the producer has stopped. -/
lemma beginPoll {events : List FtNativeEvent} (h : a.Tells (events ++ a.pendingEvents))
    (peerClosed : Bool) :
    (a.beginPoll peerClosed).1.Tells
      ((events ++ (a.beginPoll peerClosed).2.toList) ++ (a.beginPoll peerClosed).1.pendingEvents) ∧
    ((a.beginPoll peerClosed).2 = none → (a.beginPoll peerClosed).1.pendingEvents = []) := by
  rw [FtNativeAttach.beginPoll]
  cases hq : a.pendingEvents with
  | cons event rest =>
    refine ⟨?_, (by rintro ⟨⟩)⟩
    have hsame : events ++ a.pendingEvents = (events ++ [event]) ++ rest := by
      rw [hq, List.append_assoc, List.singleton_append]
    rw [hsame] at h
    exact h.of_same rfl rfl rfl rfl
  | nil =>
    rw [hq, List.append_nil] at h
    dsimp only
    split_ifs with hstopped
    · refine ⟨?_, (by rintro ⟨⟩)⟩
      have htold := h.silent (e := ⟨.producerStopped, 0, a.lastEventConfigGeneration⟩)
        (by rintro ⟨⟩) (by rintro ⟨⟩) (by rintro ⟨⟩)
      simp only [Option.toList_some, List.append_nil]
      exact htold.of_same rfl rfl rfl rfl
    · refine ⟨?_, fun _ => rfl⟩
      simp only [Option.toList_none, List.append_nil]
      exact h.of_same rfl rfl rfl rfl

/-- The stream has changed to a pool that the consumer did not know. -/
lemma addPool {events : List FtNativeEvent} (h : a.Tells events) (hq : a.pendingEvents = [])
    {poolId generation : ℕ} (hnew : a.knownPool poolId = none)
    (hlt : a.lastEventConfigGeneration < generation) :
    (a.addPool poolId generation).1.Tells
      ((events ++ [(a.addPool poolId generation).2]) ++
        (a.addPool poolId generation).1.pendingEvents) := by
  rw [FtNativeAttach.addPool]
  dsimp only
  have hknown : poolId ∈ a.pools ++ (a.dynamicPools ++ [poolId]) := by simp
  split_ifs with hchanged
  · have htold := ((h.takeBack hlt).add hnew generation).change hknown hlt
    simp only [importLinuxPool, hq, List.nil_append, List.append_assoc] at htold ⊢
    exact htold.of_same rfl rfl rfl rfl
  · have htold := (h.add hnew generation).change hknown hlt
    simp only [importLinuxPool, hq, List.nil_append, List.append_assoc] at htold ⊢
    exact htold.of_same rfl rfl rfl rfl

/-- The stream has changed to a pool that the consumer knows. -/
lemma changePool {events : List FtNativeEvent} (h : a.Tells events) (hq : a.pendingEvents = [])
    {poolId generation : ℕ} (hknown : poolId ∈ a.pools ++ a.dynamicPools)
    (hlt : a.lastEventConfigGeneration < generation) :
    (a.changePool poolId generation).1.Tells
      ((events ++ [(a.changePool poolId generation).2]) ++
        (a.changePool poolId generation).1.pendingEvents) := by
  rw [FtNativeAttach.changePool]
  dsimp only
  have hchange := h.change hknown hlt
  split_ifs with hchanged
  · have htold := hchange.silent (e := ⟨.poolRemoved, a.lastEventPoolId, generation⟩)
      (by rintro ⟨⟩) (by rintro ⟨⟩) (fun _ => by
        -- the change itself is of this generation, so it does not count
        rw [poolBefore_concat _ _ rfl, if_neg (Nat.lt_irrefl _)]
        exact (h.poolBefore_eq hlt).symm)
    simp only [hq, List.nil_append, List.append_assoc] at htold ⊢
    exact htold.of_same rfl rfl rfl rfl
  · simp only [hq, List.append_nil]
    exact hchange.of_same rfl rfl rfl rfl

/-- **After its read a poll** tells of the change, if there is one. -/
lemma endPoll {events : List FtNativeEvent} (h : a.Tells events) (hq : a.pendingEvents = [])
    (latest : Option (ℕ × ℕ)) (fetched : Except FetchError Unit) :
    (a.endPoll latest fetched).1.Tells
      ((events ++ (a.endPoll latest fetched).2.2.toList) ++
        (a.endPoll latest fetched).1.pendingEvents) := by
  have hsilent : a.Tells ((events ++ []) ++ a.pendingEvents) := by
    rw [hq, List.append_nil, List.append_nil]
    exact h
  cases latest with
  | none => exact hsilent
  | some entry =>
    obtain ⟨poolId, generation⟩ := entry
    simp only [FtNativeAttach.endPoll]
    split_ifs with hold
    · exact hsilent
    · have hlt : a.lastEventConfigGeneration < generation := by omega
      cases hknown : a.knownPool poolId with
      | some found =>
        have hmem : poolId ∈ a.pools ++ a.dynamicPools := by
          have hfound := List.find?_some hknown
          rw [decide_eq_true_eq] at hfound
          rw [← hfound]
          exact List.mem_of_find?_eq_some hknown
        exact h.changePool hq hmem hlt
      | none =>
        cases fetched with
        | error e => exact hsilent
        | ok _ => exact h.addPool hq hknown hlt

end Tells

end FtNativeAttach

/-! ### The steps of a run -/

/-- The consumer has the grant, and the attach has not returned. -/
def ConsumerPc.joining : ConsumerPc → Bool
  | .granted | .configFirst .. | .configSecond .. | .attaching _ => true
  | _ => false

/-- The attach has returned. -/
def ConsumerPc.attached : ConsumerPc → Bool
  | .idle | .polling | .reading => true
  | _ => false

lemma ConsumerPc.attached_of_joining {pc : ConsumerPc} (h : pc.joining = true) :
    pc.attached = false := by
  cases pc with
  | granted | configFirst | configSecond | attaching => rfl
  | detached | idle | polling | reading => cases h

/-- The last generation that a consumer in its attach has heard of. -/
def ConsumerPc.sampled : ConsumerPc → ℕ
  | .configFirst generation latest found => max found (max generation latest)
  | .configSecond generation latest _ found => max found (max generation latest)
  | .attaching found => found
  | _ => 0

namespace Watch

variable {F : Type} {s s' : Watch F}

/-- **What a step can do.** -/
inductive Moves (s : Watch F) : WatchLabel F → Watch F → Prop
  | producer {l : NativeLabel F} {producer : NativeTrackProducer F} : l.isProducers = true →
      s.producer.step l = some producer →
      Moves s (.producer l)
        { s with producer, quiet := s.quiet && decide (producer.page.push = .idle) }
  | grant : s.pc = .detached → Moves s .grant
      { s with pc := .granted, attach := .fromUnixSocket [s.producer.pool] 0 }
  | samples {pc : ConsumerPc} : s.pc.joining = true → pc.joining = true →
      pc.sampled ≤ max s.pc.sampled s.producer.page.configCursor →
      Moves s .load { s with pc }
  | attach {found : ℕ} : s.pc = .attaching found → Moves s .attach
      { s with pc := .idle, attach := .fromUnixSocket s.attach.pools found }
  | poll (peerClosed : Bool) : s.pc = .idle → Moves s (.poll peerClosed) (s.poll peerClosed)
  | nothing : s.pc = .polling → s.producer.page.producerCursor = 0 →
      Moves s .load (s.finishPoll none (.ok ()))
  | asks : s.pc = .polling → s.producer.page.producerCursor ≠ 0 →
      s.producer.page.read.isIdle = true → Moves s .load
        { s with
          producer := { s.producer with
            page := { s.producer.page with read := .latest s.producer.page.producerCursor } }
          pc := .reading }
  | reads {page : Page} : s.pc = .reading → s.producer.page.readStep = some page →
      Moves s .load { s with producer := { s.producer with page } }
  | polled {cursor : ℕ} {result : Except VideoRingReadError VideoRingEntry}
      (fetched : Except FetchError Unit) : s.pc = .reading →
      s.producer.page.read = .returned cursor result →
      Moves s (.polled fetched) (s.finishPoll
        (result.toOption.map fun entry => (entry.poolId, entry.configGeneration)) fetched)

/-- What has been told. Until a poll has delivered what is queued, it does not ask the page; and
before the attach there are no events. -/
structure Informed (s : Watch F) : Prop where
  tells : s.attach.Tells (s.events ++ s.attach.pendingEvents)
  asking : s.pc ≠ .idle → s.attach.pendingEvents = []
  starting : s.pc.attached = false → s.events = [] ∧ s.attach.pools.Nodup

namespace Informed

/-- The end of a poll. -/
lemma finishPoll (h : Informed s) (hpc : s.pc ≠ .idle) (latest : Option (ℕ × ℕ))
    (fetched : Except FetchError Unit) : Informed (s.finishPoll latest fetched) := by
  have htells := h.tells
  rw [h.asking hpc, List.append_nil] at htells
  exact ⟨htells.endPoll (h.asking hpc) latest fetched, fun hidle => absurd rfl hidle,
    fun hno => Bool.noConfusion hno⟩

/-- The start of a poll. -/
lemma poll (h : Informed s) (hidle : s.pc = .idle) (peerClosed : Bool) :
    Informed (s.poll peerClosed) := by
  obtain ⟨htells, hqueue⟩ := h.tells.beginPoll peerClosed
  rw [Watch.poll]
  cases hbegun : (s.attach.beginPoll peerClosed).2 with
  | some event =>
    rw [hbegun] at htells
    refine ⟨htells, fun hpc => absurd hidle hpc, fun hno => ?_⟩
    rw [hidle] at hno
    cases hno
  | none =>
    rw [hbegun, Option.toList_none, List.append_nil] at htells
    exact ⟨htells, fun _ => hqueue hbegun, fun hno => Bool.noConfusion hno⟩

/-- **Every step keeps what has been told right.** -/
lemma move (h : Informed s) {l : WatchLabel F} (hs : s.Moves l s') : Informed s' := by
  cases hs with
  | producer hown hproducer => exact ⟨h.tells, h.asking, h.starting⟩
  | grant hpc =>
    obtain ⟨hevents, -⟩ := h.starting (by rw [hpc]; rfl)
    refine ⟨?_, fun _ => rfl, fun _ => ⟨hevents, List.nodup_singleton _⟩⟩
    show FtNativeAttach.Tells _ (s.events ++ [])
    rw [hevents]
    exact .fromUnixSocket (List.nodup_singleton _) 0
  | samples hjoining hjoining' hsampled =>
    refine ⟨h.tells, fun _ => h.asking ?_, fun _ => h.starting (ConsumerPc.attached_of_joining hjoining)⟩
    rintro hidle
    rw [hidle] at hjoining
    cases hjoining
  | attach hpc =>
    obtain ⟨hevents, hnodup⟩ := h.starting (by rw [hpc]; rfl)
    refine ⟨?_, fun hidle => absurd rfl hidle, fun hno => Bool.noConfusion hno⟩
    show FtNativeAttach.Tells _ (s.events ++ [])
    rw [hevents]
    exact .fromUnixSocket hnodup _
  | poll peerClosed hidle => exact h.poll hidle peerClosed
  | nothing hpc _ => exact h.finishPoll (by rw [hpc]; rintro ⟨⟩) _ _
  | asks hpc _ _ =>
    exact ⟨h.tells, fun _ => h.asking (by rw [hpc]; rintro ⟨⟩),
      fun hno => Bool.noConfusion hno⟩
  | reads hpc _ => exact ⟨h.tells, h.asking, h.starting⟩
  | polled fetched hpc _ => exact h.finishPoll (by rw [hpc]; rintro ⟨⟩) _ fetched

end Informed

end Watch

/-- A frame of the producer. -/
def aFrame : List (WatchLabel ℕ) :=
  let labels : List (NativeLabel ℕ) :=
    [NativeLabel.publish 0 0 { claim := .ok (.ready 0) }] ++
      List.replicate 28 NativeLabel.store ++ [NativeLabel.finish]
  labels.map .producer

/-- A poll that reads the latest entry and fetches its pool. -/
def aPoll : List (WatchLabel ℕ) :=
  .poll false :: List.replicate 30 .load ++ [.polled (.ok ())]

/-- A consumer joins; there is a frame from the first pool and one from a second pool, with these
stream values; and the consumer polls. -/
def secondPool (params : NativeStreamParams) : List (WatchLabel ℕ) :=
  [.grant, .load, .attach] ++ aFrame ++ aPoll ++ aPoll ++
    [.producer (.replacePool params 5 2)] ++ aFrame ++ aPoll ++ aPoll ++ aPoll ++ aPoll

/-- **What a poll does with the latest entry**: nothing, if it is not newer; or its pool cannot be
fetched; or its pool is known from now on. -/
lemma FtNativeAttach.endPoll_cases (a : FtNativeAttach) (poolId generation : ℕ)
    (fetched : Except FetchError Unit) :
    ((generation = 0 ∨ generation ≤ a.lastEventConfigGeneration) ∧
      a.endPoll (some (poolId, generation)) fetched = (a, .empty, none)) ∨
    (∃ e : FetchError, a.endPoll (some (poolId, generation)) fetched = (a, e.status, none)) ∨
    ((a.endPoll (some (poolId, generation)) fetched).1.lastEventConfigGeneration = generation ∧
      poolId ∈ (a.endPoll (some (poolId, generation)) fetched).1.pools ++
        (a.endPoll (some (poolId, generation)) fetched).1.dynamicPools ∧
      (a.endPoll (some (poolId, generation)) fetched).2.1 = .ok) := by
  simp only [FtNativeAttach.endPoll]
  split_ifs with hold
  · exact .inl ⟨hold, rfl⟩
  cases hknown : a.knownPool poolId with
  | some found =>
    refine .inr (.inr ⟨rfl, ?_, rfl⟩)
    have hfound := List.find?_some hknown
    rw [decide_eq_true_eq] at hfound
    rw [← hfound]
    exact List.mem_of_find?_eq_some hknown
  | none =>
    cases fetched with
    | error e => exact .inr (.inl ⟨e, rfl⟩)
    | ok _ =>
      refine .inr (.inr ?_)
      simp only [FtNativeAttach.addPool, FtNativeAttach.importLinuxPool]
      split_ifs
      · exact ⟨rfl, by simp, trivial⟩
      · exact ⟨rfl, by simp, trivial⟩

lemma FetchError.status_ne_empty (e : FetchError) : e.status ≠ .empty := by
  cases e with
  | invalidArgument | error | unsupported | invalidState => rintro ⟨⟩

namespace Watch

variable {F : Type} {s s' : Watch F}

/-- The entries that have been given to `push`. -/
def entered (s : Watch F) : List PendingVideoRingEntry := s.producer.page.entered

/-- The pools that the consumer has been told of, or is about to be. -/
def known (s : Watch F) : List ℕ := s.attach.pools ++ s.attach.dynamicPools

/-- **What the consumer has seen of the page.** The generations that it knows are those of the
page; while it is quiet the page rests, and a read returns the latest entry. -/
structure Following (s : Watch F) : Prop where
  paging : s.producer.Paging
  sampled : s.pc.sampled ≤ (configsOf s.entered).length
  last : s.attach.lastEventConfigGeneration ≤ (configsOf s.entered).length
  quiet : s.quiet = true → s.producer.page.push = .idle
  reading : s.pc = .reading → s.quiet = true → s.producer.page.Returns
    s.producer.page.producerCursor
    (s.producer.page.readEntryForCursor s.producer.page.producerCursor)

namespace Following

/-- Before the first frame there is no generation. -/
lemma generation_of_nil (h : Following s) (hnil : s.entered = []) :
    s.attach.lastEventConfigGeneration = (configsOf s.entered).length := by
  have hlast := h.last
  rw [hnil] at hlast ⊢
  exact Nat.eq_zero_of_le_zero hlast

/-- What an entry that has been read says. -/
lemma read (h : Following s) {cursor : ℕ} {entry : VideoRingEntry}
    (hread : s.producer.page.read = .returned cursor (.ok entry)) :
    ∃ e : PendingVideoRingEntry, 0 < cursor ∧ s.entered[cursor - 1]? = some e ∧
      entry.poolId = e.poolId ∧ entry.configGeneration = generationAt s.entered cursor := by
  have hreading := h.paging.paged.page.2
  rw [hread] at hreading
  obtain ⟨e, generation, hlog, rfl⟩ := hreading
  have hstamped := h.paging.settled.stamped cursor e generation hlog
  have hlt : cursor - 1 < (s.producer.page.pushes.map (·.1)).length := by
    rw [List.length_map]
    exact (List.getElem?_eq_some_iff.mp hlog.2).1
  refine ⟨e, hlog.1, ?_, rfl, ?_⟩
  · rw [entered, Page.entered, List.getElem?_append_left hlt, List.getElem?_map, hlog.2]
    rfl
  · have hpos := hlog.1
    calc generation = generationAt s.producer.page.entries cursor := hstamped
      _ = generationAt s.entered cursor := by
          rw [entered, Page.entered, generationAt_append (by omega)]
          rfl

/-- The end of a poll. -/
lemma finishPoll (h : Following s) {latest : Option (ℕ × ℕ)}
    (hlatest : ∀ poolId generation, latest = some (poolId, generation) →
      generation ≤ (configsOf s.entered).length) (fetched : Except FetchError Unit) :
    Following (s.finishPoll latest fetched) := by
  refine ⟨h.paging, Nat.zero_le _, ?_, h.quiet, (by rintro ⟨⟩)⟩
  show (s.attach.endPoll latest fetched).1.lastEventConfigGeneration ≤ _
  cases latest with
  | none => exact h.last
  | some entry =>
    rcases s.attach.endPoll_cases entry.1 entry.2 fetched with ⟨-, hsame⟩ | ⟨e, hsame⟩ | ⟨hlast, -⟩
    · rw [hsame]
      exact h.last
    · rw [hsame]
      exact h.last
    · rw [hlast]
      exact hlatest entry.1 entry.2 rfl

/-- A step of the producer that keeps the consumer quiet leaves the page. -/
lemma same_page (h : Following s) {l : NativeLabel F} {producer : NativeTrackProducer F}
    (hown : l.isProducers = true) (hs : s.producer.step l = some producer)
    (hquiet : (s.quiet && decide (producer.page.push = .idle)) = true) :
    s.quiet = true ∧ producer.page = s.producer.page := by
  rw [Bool.and_eq_true, decide_eq_true_eq] at hquiet
  refine ⟨hquiet.1, ?_⟩
  rcases (NativeTrackProducer.pushes_of_step hown hs).1.entered h.paging with
    hpage | ⟨hpush, -⟩ | ⟨e, -, hpush, -⟩
  · exact hpage
  · exact absurd (h.quiet hquiet.1) hpush
  · exact absurd hquiet.2 hpush

/-- Under a step of the producer the generations grow. -/
lemma grows (h : Following s) {l : NativeLabel F} {producer : NativeTrackProducer F}
    (hown : l.isProducers = true) (hs : s.producer.step l = some producer) :
    ∃ more, producer.page.entered = s.entered ++ more := by
  rcases (NativeTrackProducer.pushes_of_step hown hs).1.entered h.paging with
    hpage | ⟨-, hsame⟩ | ⟨e, -, -, hmore⟩
  · exact ⟨[], by rw [hpage, List.append_nil]; rfl⟩
  · exact ⟨[], by rw [hsame, List.append_nil]; rfl⟩
  · exact ⟨[e], hmore⟩

/-- **Every step** keeps what the consumer has seen. -/
lemma move (h : Following s) {l : WatchLabel F} (hs : s.Moves l s') : Following s' := by
  cases hs with
  | @producer l producer hown hproducer =>
    obtain ⟨more, hmore⟩ := h.grows hown hproducer
    have hlength : (configsOf s.entered).length ≤ (configsOf producer.page.entered).length := by
      rw [hmore]
      exact length_configsOf_le _ _
    refine ⟨h.paging.step hown hproducer, h.sampled.trans hlength, h.last.trans hlength,
      fun hquiet => ?_, fun hpc hquiet => ?_⟩
    · obtain ⟨hbefore, hpage⟩ := h.same_page hown hproducer hquiet
      rw [hpage]
      exact h.quiet hbefore
    · obtain ⟨hbefore, hpage⟩ := h.same_page hown hproducer hquiet
      rw [hpage]
      exact h.reading hpc hbefore
  | grant hpc => exact ⟨h.paging, Nat.zero_le _, Nat.zero_le _, h.quiet, (by rintro ⟨⟩)⟩
  | @samples pc hjoining hjoining' hsampled =>
    have hcursor := h.paging.settled.configCursor_le h.paging.paged.page.1
    refine ⟨h.paging, hsampled.trans (max_le h.sampled hcursor), h.last, h.quiet, ?_⟩
    rintro rfl
    cases hjoining'
  | @attach found hpc =>
    have hfound := h.sampled
    rw [hpc] at hfound
    exact ⟨h.paging, Nat.zero_le _, hfound, h.quiet, (by rintro ⟨⟩)⟩
  | poll peerClosed hidle =>
    rw [Watch.poll]
    obtain ⟨-, -, hlast⟩ := s.attach.beginPoll_frame peerClosed
    cases hbegun : (s.attach.beginPoll peerClosed).2 with
    | some event =>
      refine ⟨h.paging, h.sampled, hlast.trans_le h.last, of_decide_eq_true, ?_⟩
      rw [hidle]
      rintro ⟨⟩
    | none => exact ⟨h.paging, Nat.zero_le _, hlast.trans_le h.last, of_decide_eq_true, (by rintro ⟨⟩)⟩
  | nothing hpc _ => exact h.finishPoll (fun _ _ hlatest => by cases hlatest) _
  | asks hpc _ hidle =>
    refine ⟨h.paging.ask hidle _, Nat.zero_le _, h.last, h.quiet, fun _ _ => ?_⟩
    exact s.producer.page.returns_readEntryForCursor _
  | @reads page hpc hload =>
    have hpage := Page.readStep_eq hload
    have hentered : page.entered = s.producer.page.entered := by rw [hpage]; rfl
    refine ⟨h.paging.load hload, ?_, ?_, fun hquiet => ?_, fun _ hquiet => ?_⟩
    · rw [entered, hentered]
      exact h.sampled
    · rw [entered, hentered]
      exact h.last
    · show page.push = .idle
      rw [hpage]
      exact h.quiet hquiet
    · have hreturns := (h.reading hpc hquiet).unload hload
      have hcursor : page.producerCursor = s.producer.page.producerCursor := by rw [hpage]
      have hresult : page.readEntryForCursor = s.producer.page.readEntryForCursor := by
        rw [hpage]
        rfl
      show page.Returns page.producerCursor (page.readEntryForCursor page.producerCursor)
      rw [hcursor, hresult]
      exact hreturns
  | @polled cursor result fetched hpc hread =>
    refine h.finishPoll (fun poolId generation hlatest => ?_) fetched
    cases result with
    | error e => cases hlatest
    | ok entry =>
      obtain ⟨e, -, -, -, hgeneration⟩ := h.read hread
      cases hlatest
      rw [hgeneration]
      exact generationAt_le _ _

end Following

/-- **How a consumer joins**: the grant carries the pool of the latest entry, and until the attach
returns the frames come from it. -/
def Joins (s : Watch F) : WatchLabel F → Prop
  | .grant => ∀ e ∈ s.entered.getLast?, e.poolId = s.producer.pool
  | .producer (.publish ..) => s.pc.joining = true → s.producer.pool ∈ s.attach.pools
  | _ => True

instance (s : Watch F) (l : WatchLabel F) : Decidable (s.Joins l) :=
  match l with
  | .grant => inferInstanceAs (Decidable (∀ e ∈ s.entered.getLast?, e.poolId = s.producer.pool))
  | .producer (.publish ..) =>
      inferInstanceAs (Decidable (s.pc.joining = true → s.producer.pool ∈ s.attach.pools))
  | .producer .store | .producer .finish | .producer (.replacePool ..) | .producer (.read _)
  | .producer .load | .load | .attach | .poll _ | .polled _ => .isTrue trivial

/-- **What the consumer knows of the pools.** If its last event has the last generation, it knows
the pool of the latest entry; and both hold once a poll has found nothing. -/
structure Knows (s : Watch F) : Prop where
  joining : s.pc.joining = true → ∀ e ∈ s.entered.getLast?, e.poolId ∈ s.attach.pools
  status : s.pc.attached = false → s.status = none
  current : s.pc.attached = true →
    s.attach.lastEventConfigGeneration = (configsOf s.entered).length →
    ∀ e ∈ s.entered.getLast?, e.poolId ∈ s.known
  answered : s.pc = .idle → s.status = some .empty → s.quiet = true →
    s.attach.pendingEvents = [] ∧
      s.attach.lastEventConfigGeneration = (configsOf s.entered).length ∧
      ∀ e ∈ s.entered.getLast?, e.poolId ∈ s.known

namespace Knows

/-- A poll that has not changed the attach. -/
lemma unchanged (h : Knows s) (hpc : s.pc.attached = true) (hqueue : s.attach.pendingEvents = [])
    {latest : Option (ℕ × ℕ)} {fetched : Except FetchError Unit} {status : FtStatus}
    (hsame : s.attach.endPoll latest fetched = (s.attach, status, none))
    (hlast : status = .empty → s.quiet = true →
      s.attach.lastEventConfigGeneration = (configsOf s.entered).length ∧
        ∀ e ∈ s.entered.getLast?, e.poolId ∈ s.known) :
    Knows (s.finishPoll latest fetched) := by
  have hattach : (s.finishPoll latest fetched).attach = s.attach := congrArg (·.1) hsame
  have hstatus : (s.finishPoll latest fetched).status = some status :=
    congrArg (fun x : FtNativeAttach × FtStatus × Option FtNativeEvent => some x.2.1) hsame
  refine ⟨(by rintro ⟨⟩), fun hno => Bool.noConfusion hno, fun _ hgeneration => ?_, fun _ hempty hquiet => ?_⟩
  · rw [known, hattach]
    rw [hattach] at hgeneration
    exact h.current hpc hgeneration
  · rw [hstatus, Option.some.injEq] at hempty
    obtain ⟨hgeneration, hknown⟩ := hlast hempty hquiet
    rw [known, hattach]
    exact ⟨hqueue, hgeneration, hknown⟩

/-- The end of a poll that has read an entry. -/
lemma polled (h : Knows s) (hf : Following s) (htame : Tame s.entered)
    (hqueue : s.attach.pendingEvents = []) (hpc : s.pc = .reading) {cursor : ℕ}
    {result : Except VideoRingReadError VideoRingEntry} (fetched : Except FetchError Unit)
    (hread : s.producer.page.read = .returned cursor result) :
    Knows (s.finishPoll
      (result.toOption.map fun entry => (entry.poolId, entry.configGeneration)) fetched) := by
  have hattached : s.pc.attached = true := by rw [hpc]; rfl
  -- a quiet consumer has read the latest entry
  have hlatest : s.quiet = true → ∀ e ∈ s.entered.getLast?,
      result = .ok (e.entry s.producer.page.producerCursor (configsOf s.entered).length) := by
    intro hquiet e he
    rw [(hf.reading hpc hquiet).eq hread]
    exact hf.paging.latest (hf.quiet hquiet) htame.configs he
  cases result with
  | error e =>
    refine h.unchanged hattached hqueue rfl fun _ hquiet => ?_
    cases hlast : s.entered.getLast? with
    | none => exact ⟨hf.generation_of_nil (List.getLast?_eq_none_iff.mp hlast), by rintro _ ⟨⟩⟩
    | some last => cases hlatest hquiet last hlast
  | ok entry =>
    obtain ⟨e, hpos, he, hpool, hgeneration⟩ := hf.read hread
    rcases s.attach.endPoll_cases entry.poolId entry.configGeneration fetched with
      ⟨hold, hsame⟩ | ⟨failure, hsame⟩ | ⟨hlast, hmem, hok⟩
    · refine h.unchanged hattached hqueue hsame fun _ hquiet => ?_
      have hne : s.entered ≠ [] := by
        intro hnil
        rw [hnil] at he
        cases he
      have hentry := Except.ok.inj (hlatest hquiet _ (List.getLast?_eq_some_getLast hne))
      have hcurrent : entry.configGeneration = (configsOf s.entered).length := by
        rw [hentry]
        rfl
      have hmore : 0 < (configsOf s.entered).length := by
        rw [← generationAt_length]
        exact generationAt_pos (List.length_pos_of_ne_nil hne) le_rfl
      have hle := hf.last
      have hsame : s.attach.lastEventConfigGeneration = (configsOf s.entered).length := by omega
      exact ⟨hsame, h.current hattached hsame⟩
    · exact h.unchanged hattached hqueue hsame fun hempty => absurd hempty failure.status_ne_empty
    · refine ⟨(by rintro ⟨⟩), fun hno => Bool.noConfusion hno, fun _ hnow last hl => ?_, fun _ hempty => ?_⟩
      · have hnow' : entry.configGeneration = (configsOf s.entered).length := hlast.symm.trans hnow
        have hsame := htame.renewed.one_pool hpos he (hgeneration.symm.trans hnow') hl
        rw [← hsame, ← hpool]
        exact hmem
      · have hsome : some FtStatus.ok = some .empty := (congrArg some hok.symm).trans hempty
        cases hsome

/-- **Every step** keeps what the consumer knows. -/
lemma move (h : Knows s) (hf : Following s) (hi : Informed s) {l : WatchLabel F} (hl : Joins s l)
    (hs : s.Moves l s') (htame : Tame s'.entered) : Knows s' := by
  cases hs with
  | @producer l producer hown hproducer =>
    obtain ⟨hpushes, hpublish⟩ := NativeTrackProducer.pushes_of_step hown hproducer
    have hframe : producer.page.entered = s.entered → Knows
        { s with producer, quiet := s.quiet && decide (producer.page.push = .idle) } := by
      intro hentered
      refine ⟨?_, h.status, ?_, fun hpc hempty hquiet => ?_⟩
      · rw [entered, hentered]
        exact h.joining
      · rw [entered, hentered]
        exact h.current
      · rw [entered, hentered]
        exact h.answered hpc hempty (hf.same_page hown hproducer hquiet).1
    rcases hpushes.entered hf.paging with hpage | ⟨-, hsame⟩ | ⟨e, hpool, hpush, hmore⟩
    · exact hframe (congrArg Page.entered hpage)
    · exact hframe hsame
    refine ⟨fun hjoining last hlast => ?_, h.status, fun hpc hcurrent last hlast => ?_,
      fun _ _ hquiet => ?_⟩
    · rw [entered, hmore, List.getLast?_concat, Option.mem_some_iff] at hlast
      obtain ⟨frame, timestampNs, a, rfl⟩ := hpublish (by rw [hmore]; simp)
      rw [← hlast, hpool]
      exact hl hjoining
    · rw [entered, hmore, List.getLast?_concat, Option.mem_some_iff] at hlast
      rw [entered, hmore] at hcurrent htame
      -- the frame has brought no config, so it comes from the pool of the frame before it
      have hle := hf.last
      have hgrow := length_configsOf_le s.entered [e]
      have hcurrent' : s.attach.lastEventConfigGeneration =
        (configsOf (s.entered ++ [e])).length := hcurrent
      have hstill : (configsOf (s.entered ++ [e])).length = (configsOf s.entered).length := by omega
      obtain ⟨before, hbefore, hsame⟩ := htame.renewed.same_pool hstill
      have hknown := h.current hpc (by omega) before hbefore
      rw [hsame, hlast] at hknown
      exact hknown
    · rw [Bool.and_eq_true, decide_eq_true_eq] at hquiet
      exact absurd hquiet.2 hpush
  | grant hpc =>
    have hstatus := h.status (by rw [hpc]; rfl)
    refine ⟨fun _ e he => ?_, fun _ => hstatus, fun hno => Bool.noConfusion hno, (by rintro ⟨⟩)⟩
    rw [hl e he]
    exact List.mem_singleton_self _
  | @samples pc hjoining hjoining' hsampled =>
    have hno := ConsumerPc.attached_of_joining hjoining'
    refine ⟨fun _ => h.joining hjoining, fun _ => h.status (ConsumerPc.attached_of_joining hjoining),
      fun hyes => ?_, fun hpc => ?_⟩
    · cases hno.symm.trans hyes
    · cases hpc
      cases hno
  | @attach found hpc =>
    have hjoining : s.pc.joining = true := by rw [hpc]; rfl
    have hstatus := h.status (ConsumerPc.attached_of_joining hjoining)
    refine ⟨(by rintro ⟨⟩), fun hno => Bool.noConfusion hno, fun _ _ e he => ?_, fun _ hempty => ?_⟩
    · exact List.mem_append_left _ (h.joining hjoining e he)
    · cases hstatus.symm.trans hempty
  | poll peerClosed hidle =>
    obtain ⟨hpools, hdynamic, hlast⟩ := s.attach.beginPoll_frame peerClosed
    have hcurrent : (s.attach.beginPoll peerClosed).1.lastEventConfigGeneration =
        (configsOf s.entered).length → ∀ e ∈ s.entered.getLast?, e.poolId ∈
          (s.attach.beginPoll peerClosed).1.pools ++
            (s.attach.beginPoll peerClosed).1.dynamicPools := by
      rw [hpools, hdynamic, hlast]
      exact h.current (by rw [hidle]; rfl)
    rw [Watch.poll]
    cases hbegun : (s.attach.beginPoll peerClosed).2 with
    | some event =>
      refine ⟨fun hjoining => ?_, fun hno => ?_, fun _ => hcurrent, by rintro _ ⟨⟩⟩
      · rw [hidle] at hjoining
        cases hjoining
      · rw [hidle] at hno
        cases hno
    | none => exact ⟨(by rintro ⟨⟩), fun hno => Bool.noConfusion hno, fun _ => hcurrent, (by rintro ⟨⟩)⟩
  | nothing hpc hzero =>
    refine h.unchanged (by rw [hpc]; rfl) (hi.asking (by rw [hpc]; rintro ⟨⟩)) rfl
      fun _ hquiet => ?_
    -- nothing has been pushed
    have hlength := hf.paging.paged.page.1.entered_length
    rw [if_pos (hf.quiet hquiet), hzero] at hlength
    have hnil : s.entered = [] := List.length_eq_zero_iff.mp hlength
    refine ⟨hf.generation_of_nil hnil, ?_⟩
    rw [hnil]
    rintro _ ⟨⟩
  | asks hpc _ hidle =>
    exact ⟨(by rintro ⟨⟩), fun hno => Bool.noConfusion hno, fun _ => h.current (by rw [hpc]; rfl), (by rintro ⟨⟩)⟩
  | @reads page hpc hload =>
    have hentered : page.entered = s.entered := by
      rw [Page.readStep_eq hload]
      rfl
    refine ⟨?_, ?_, ?_, ?_⟩
    · rw [entered, hentered]
      exact h.joining
    · exact h.status
    · rw [entered, hentered]
      exact h.current
    · rw [entered, hentered]
      exact h.answered
  | polled fetched hpc hread =>
    exact h.polled hf htame (hi.asking (by rw [hpc]; rintro ⟨⟩)) hpc fetched hread

end Knows

end Watch

/-- What the two have become. -/
def watched (params : NativeStreamParams) : Watch ℕ :=
  playIn Watch.step (fun s l => decide (s.Joins l)) { producer := ringOfFour } (secondPool params)

/-- A second pool that keeps the stream values begins no config, and is never announced. -/
example :
    (watched ⟨2, 2, 0, 0, 0⟩).pc = .idle ∧
    (watched ⟨2, 2, 0, 0, 0⟩).status = some .empty ∧
    (watched ⟨2, 2, 0, 0, 0⟩).quiet = true ∧
    (watched ⟨2, 2, 0, 0, 0⟩).entered.getLast?.map (·.poolId) = some 2 ∧
    2 ∉ (watched ⟨2, 2, 0, 0, 0⟩).attach.pools ++
      addedPools (watched ⟨2, 2, 0, 0, 0⟩).events := by decide +kernel

end Jackstay.Native
