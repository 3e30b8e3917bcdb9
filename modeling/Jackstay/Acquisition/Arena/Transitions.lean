import Jackstay.Acquisition.Arena.Moves

/-!
What a step of the arena can do.

* `Pc.Flows` is the control flow of the producer: the steps that change nothing but
  its program counter, with what they have read.
* `Arena.Acts` lists the steps that change data, one constructor each, next to the
  steps of the incarnations and of the holders of reservations.
* `Arena.acts_of_step`: the step function does nothing else. Every invariant of the
  arena is proved by cases on `Arena.Acts`.
-/

namespace Jackstay.Acquisition

namespace Arena

variable (s : Arena)

/-! ### Projections -/

@[simp] lemma goto_shared (pc : Pc) : (s.goto pc).shared = s.shared := rfl

@[simp] lemma goto_incarnations (pc : Pc) : (s.goto pc).incarnations = s.incarnations := rfl

@[simp] lemma goto_log (pc : Pc) : (s.goto pc).log = s.log := rfl

@[simp] lemma onPage_shared (i : ℕ) (f : Incarnation → Incarnation) :
    (s.onPage i f).shared = s.shared := rfl

@[simp] lemma onPage_producer (i : ℕ) (f : Incarnation → Incarnation) :
    (s.onPage i f).producer = s.producer := rfl

@[simp] lemma onMap_incarnations (g : ℕ) (f : ResourceMap → ResourceMap) :
    (s.onMap g f).incarnations = s.incarnations := rfl

@[simp] lemma onMap_producer (g : ℕ) (f : ResourceMap → ResourceMap) :
    (s.onMap g f).producer = s.producer := rfl

@[simp] lemma onMap_control (g : ℕ) (f : ResourceMap → ResourceMap) :
    (s.onMap g f).shared.control = s.shared.control := rfl

@[simp] lemma onControl_incarnations (f : ControlMap → ControlMap) :
    (s.onControl f).incarnations = s.incarnations := rfl

@[simp] lemma onControl_producer (f : ControlMap → ControlMap) :
    (s.onControl f).producer = s.producer := rfl

@[simp] lemma onControl_maps (f : ControlMap → ControlMap) :
    (s.onControl f).shared.maps = s.shared.maps := rfl

@[simp] lemma setBook_shared (book : AdmissionBook) : (s.setBook book).shared = s.shared := rfl

@[simp] lemma setBook_incarnations (book : AdmissionBook) :
    (s.setBook book).incarnations = s.incarnations := rfl

/-- A step of the producer that changes its program counter, and with it at most
the result and the counter of returned credit. -/
def flow (pc : Pc) (outcome : Outcome) (released : ℕ) : Arena :=
  { s with producer := { s.producer with pc, outcome, released } }

/-- The claim slots from `k` on of an incarnation have been found empty, and with
them all of it. -/
def Drained (i : ℕ) (todo : List ℕ) (goal : Goal) : Prop :=
  ∃ inc, s.incarnations i = some inc ∧
    ((∃ m, s.producer.pc = .cleanup (.mapping i m todo) goal ∧ inc.page.mappingSlot m = 0 ∧
        inc.frames + 2 ≤ m + 1 ∧ inc.frames = 0) ∨
      ∃ k, s.producer.pc = .cleanup (.claim i k todo) goal ∧ (inc.page.slot k).claim = 0 ∧
        inc.frames ≤ k + 1)

end Arena

/-! ### Control flow -/

/-- Where a slot scan goes from an offset on. -/
def Pc.scans (s : Arena) (w : Writer) (off : ℕ) : Pc :=
  if off < s.layout.resources then .scan w off else .idle

/-- Where the scan goes with a retired, unclaimed slot. -/
def Pc.finds (s : Arena) (off : ℕ) : Writer → Pc
  | .publish (.cpu descriptor bytes) => .copy (s.scanIndex off) descriptor bytes
  | .publish .native => .prepare off
  | .reserve => .reserveFlag (s.scanIndex off)

/-- `poll_cleanup` on its own fields and on what it loads. -/
inductive CleanupPc.Flows (s : Arena) : CleanupPc → CleanupPc → Prop
  | observed : Flows s (.observers []) (.quiescent s.producer.claims)
  | active (i : ℕ) (todo : List ℕ) : Flows s (.quiescent (i :: todo)) (.quiescent todo)
  | acknowledged (i : ℕ) (todo : List ℕ) (inc : Incarnation) : s.incarnations i = some inc →
      inc.page.quiescent ≠ 0 → Flows s (.quiescent (i :: todo)) (.mapping i 0 todo)
  | mapped (i m : ℕ) (todo : List ℕ) : Flows s (.mapping i m todo) (.quiescent todo)
  | unmapped (i m : ℕ) (todo : List ℕ) (inc : Incarnation) : s.incarnations i = some inc →
      inc.page.mappingSlot m = 0 → m + 1 < inc.frames + 2 →
      Flows s (.mapping i m todo) (.mapping i (m + 1) todo)
  | allUnmapped (i m : ℕ) (todo : List ℕ) (inc : Incarnation) : s.incarnations i = some inc →
      inc.page.mappingSlot m = 0 → inc.frames + 2 ≤ m + 1 → 0 < inc.frames →
      Flows s (.mapping i m todo) (.claim i 0 todo)
  | claimed (i k : ℕ) (todo : List ℕ) : Flows s (.claim i k todo) (.quiescent todo)
  | unclaimed (i k : ℕ) (todo : List ℕ) (inc : Incarnation) : s.incarnations i = some inc →
      (inc.page.slot k).claim = 0 → k + 1 < inc.frames →
      Flows s (.claim i k todo) (.claim i (k + 1) todo)
  | collected : Flows s (.quiescent []) (.retired 0)
  | probe (index : ℕ) (r : RetiredAllocation) : s.producer.retired[index]? = some r →
      Flows s (.retired index) (.probe index (s.retiredProbes r.generation))
  | inUse (index : ℕ) (p : Probe) (probes : List Probe) :
      Flows s (.probe index (p :: probes)) (.retired (index + 1))
  | mappingClear (index i m : ℕ) (probes : List Probe) (r : RetiredAllocation)
      (inc : Incarnation) : s.producer.retired[index]? = some r → s.incarnations i = some inc →
      inc.page.mappingSlot m ≠ r.generation →
      Flows s (.probe index (.mapping i m :: probes)) (.probe index probes)
  | recordClear (index i slot : ℕ) (probes : List Probe) (r : RetiredAllocation) :
      s.producer.retired[index]? = some r →
      ((s.shared.maps r.generation).records slot).state / 2 = 0 →
      Flows s (.probe index (.record i slot :: probes)) (.probe index probes)
  | recordLoaded (index i slot : ℕ) (probes : List Probe) (r : RetiredAllocation)
      (inc : Incarnation) : s.producer.retired[index]? = some r → s.incarnations i = some inc →
      Flows s (.probe index (.record i slot :: probes)) (.probe index
        (((List.range inc.frames).map fun k =>
          .claim i (((s.shared.maps r.generation).records slot).state / 2) k) ++ probes))
  | claimClear (index i cursor k : ℕ) (probes : List Probe) (inc : Incarnation) :
      s.incarnations i = some inc → (inc.page.slot k).claim ≠ cursor →
      Flows s (.probe index (.claim i cursor k :: probes)) (.probe index probes)
  | probed (index : ℕ) : Flows s (.probe index []) (.count index)
  | owned (index : ℕ) : Flows s (.count index) (.retired (index + 1))
  | counted (index : ℕ) (r : RetiredAllocation) : s.producer.retired[index]? = some r →
      (s.shared.maps r.generation).strongCount = 1 → r.native = true →
      Flows s (.count index) (.ready index)

/-- **The control flow of the producer.** -/
inductive Pc.Flows (s : Arena) : Pc → Pc → Prop
  /-- a call that only checks the producer's own fields or ends -/
  | refused : Flows s .idle .idle
  | terminal (goal : Goal) : Flows s .idle (.terminal goal)
  | cleanup (goal : Goal) : goal = .poll ∨ goal = .shutdown →
      Flows s .idle (.cleanup (.observers s.producer.claims) goal)
  | close (i : ℕ) : i ∈ s.producer.claims → Flows s .idle (.pages .close [i] (.close i))
  | stop : Flows s .idle (.terminate (.finish .done))
  | reconfigure (payloadCapacity externalBytes : ℕ) :
      Flows s .idle (.begin payloadCapacity externalBytes)
  | retryCleanup (i : ℕ) : i ∈ s.producer.claims → Flows s .idle (.retrying i)
  | exportWriter : Flows s .idle .exporting
  | drop : Flows s .idle (.terminate .drop)
  /-- the `TERMINAL` load -/
  | closed (goal : Goal) : Flows s (.terminal goal) .idle
  | opened (goal : Goal) : s.shared.control.terminal = 0 →
      Flows s (.terminal goal) (.cleanup (.observers s.producer.claims) goal)
  /-- `poll_cleanup` -/
  | clean (c c' : CleanupPc) (goal : Goal) : c.Flows s c' →
      Flows s (.cleanup c goal) (.cleanup c' goal)
  | cleaned (index : ℕ) (goal : Goal) : s.producer.retired[index]? = none →
      Flows s (.cleanup (.retired index) goal) (.resume goal)
  | unready (index : ℕ) (goal : Goal) : Flows s (.cleanup (.ready index) goal) .idle
  /-- the rest of the call -/
  | resumed (goal : Goal) : Flows s (.resume goal) .idle
  | exhausted (goal : Goal) : s.producer.cursor = maxGeneration →
      Flows s (.resume goal) (.terminate (.finish (.error .generationsExhausted)))
  | publish (source : Source) (g : ℕ) : s.producer.resources = some g →
      source.len ≤ s.layout.payloadCapacity → s.producer.cursor ≠ maxGeneration →
      Flows s (.resume (.publish source)) (scans s (.publish source) 0)
  | reserve (g : ℕ) : s.producer.resources = some g → s.layout.payloadCapacity ≠ 0 →
      s.producer.cursor ≠ maxGeneration → Flows s (.resume .reserve) (scans s .reserve 0)
  | shutdown : Flows s (.resume .shutdown) .shutdown
  | shutdownReady : Flows s .shutdown .idle
  /-- the slot scan -/
  | reserved (w : Writer) (off : ℕ) :
      ((s.shared.maps s.current).records (s.scanIndex off)).reserved = true →
      Flows s (.scan w off) (scans s w (off + 1))
  | unreserved (w : Writer) (off : ℕ) :
      ((s.shared.maps s.current).records (s.scanIndex off)).reserved = false →
      Flows s (.scan w off) (.scanState w off)
  | retained (w : Writer) (off : ℕ) :
      ((s.shared.maps s.current).records (s.scanIndex off)).state / 2 ≠ 0 →
      s.oldest ≤ ((s.shared.maps s.current).records (s.scanIndex off)).state / 2 →
      Flows s (.scanState w off) (scans s w (off + 1))
  | stale (w : Writer) (off : ℕ) :
      ((s.shared.maps s.current).records (s.scanIndex off)).state / 2 = 0 ∨
        ((s.shared.maps s.current).records (s.scanIndex off)).state / 2 < s.oldest →
      Flows s (.scanState w off)
        (.scanRetire w off (((s.shared.maps s.current).records (s.scanIndex off)).state / 2))
  | found (w : Writer) (off generation : ℕ) :
      Flows s (.scanClaims w off generation []) (finds s off w)
  | claimed (w : Writer) (off generation i k : ℕ) (probes : List (ℕ × ℕ)) (inc : Incarnation) :
      s.incarnations i = some inc → (inc.page.slot k).claim = generation →
      Flows s (.scanClaims w off generation ((i, k) :: probes)) (scans s w (off + 1))
  | unclaimed (w : Writer) (off generation i k : ℕ) (probes : List (ℕ × ℕ)) (inc : Incarnation) :
      s.incarnations i = some inc → (inc.page.slot k).claim ≠ generation →
      Flows s (.scanClaims w off generation ((i, k) :: probes)) (.scanClaims w off generation probes)
  /-- the publication -/
  | prepareFailed (off : ℕ) : Flows s (.prepare off) .idle
  | prepareSkipped (off : ℕ) : Flows s (.prepare off) (scans s (.publish .native) (off + 1))
  | commitRefused (g index : ℕ) (descriptor : FrameDescriptor) (e : ArenaError) :
      Flows s (.commit g index descriptor) (.release g index (.error e))
  | commitExhausted (g index : ℕ) (descriptor : FrameDescriptor) :
      s.producer.cursor = maxGeneration →
      Flows s (.commit g index descriptor)
        (.terminate (.release g index (.error .generationsExhausted)))
  | commit (g index : ℕ) (descriptor : FrameDescriptor) (hostTimeNs : ℕ) :
      s.shared.control.terminal = 0 → s.producer.resources = some g →
      descriptor.payloadLen ≤ (s.shared.maps g).layout.payloadCapacity →
      s.producer.cursor ≠ maxGeneration →
      Flows s (.commit g index descriptor)
        (.describe (s.committed g index descriptor hostTimeNs) (.release g index (.published
          (s.committed g index descriptor hostTimeNs).descriptor.cursor)))
  /-- reconfiguration -/
  | unpublishLoad (layout : ResourceLayout) (index : ℕ) : index < s.layout.resources →
      Flows s (.unpublishLoad layout index)
        (.unpublish layout index ((s.shared.maps s.current).records index).state)
  | unpublished (layout : ResourceLayout) (index : ℕ) : s.layout.resources ≤ index →
      Flows s (.unpublishLoad layout index) (.firstCursor layout)
  | epochLoad (after : After) :
      Flows s (.epochLoad after) (.epoch s.shared.control.reconfigurationEpoch after)
  | epochExhausted (value : ℕ) (after : After) : Flows s (.epoch value after)
      (.terminate (.finish (.error .generationsExhausted)))
  | epochRetry (value : ℕ) (after : After) : Flows s (.epoch value after)
      (.epoch s.shared.control.reconfigurationEpoch after)
  /-- loops over the claim pages, and calls on one of them -/
  | paged (call : PageCall) (i : ℕ) (todo : List ℕ) (after : After) (inc : Incarnation) :
      s.incarnations i = some inc → inc.host = [] →
      Flows s (.paged call i todo after) (.pages call todo after)
  | pagesFailed (call : PageCall) (i : ℕ) (todo : List ℕ) (after : After) (inc : Incarnation) :
      s.incarnations i = some inc → inc.host = [] → call ≠ .close → inc.hostFault = true →
      (∀ g index o, after ≠ .release g index o) → Flows s (.paged call i todo after) .idle
  | pagesReleased (call : PageCall) (i : ℕ) (todo : List ℕ) (g index : ℕ) (o : Outcome)
      (inc : Incarnation) : s.incarnations i = some inc → inc.host = [] → call ≠ .close →
      inc.hostFault = true → Flows s (.paged call i todo (.release g index o))
        (.release g index (.error .notification))
  | finished (call : PageCall) (o : Outcome) : Flows s (.pages call [] (.finish o)) .idle
  | released (call : PageCall) (g index : ℕ) (o : Outcome) :
      Flows s (.pages call [] (.release g index o)) (.release g index o)
  | advance (call : PageCall) : Flows s (.pages call [] .advance) (.terminal .advance)
  | dropped (call : PageCall) : Flows s (.pages call [] .drop) (.dropping s.producer.claims)
  | offered (i : ℕ) (inc : Incarnation) : s.incarnations i = some inc → inc.host = [] →
      Flows s (.offering i) .idle
  | registering (i : ℕ) (inc : Incarnation) : s.incarnations i = some inc → inc.host = [] →
      Flows s (.registering i) .idle
  | registered (i : ℕ) (inc : Incarnation) : s.incarnations i = some inc →
      inc.observer.todo = [] → Flows s (.registered i) .idle
  | retried (i : ℕ) : Flows s (.retrying i) .idle
  | unexported : Flows s .exporting .idle
  | gone : Flows s (.dropping []) .gone

/-! ### Data -/

namespace Arena

/-- **What a step of the arena can do.** -/
inductive Acts (s : Arena) : Arena → Prop
  | incarnation (i : ℕ) (inc inc' : Incarnation) : s.incarnations i = some inc →
      inc.Acts s.shared inc' →
      Acts s { s with incarnations := Function.update s.incarnations i (some inc') }
  /-- the holders of reservations and exports -/
  | write (g index : ℕ) (bytes : List UInt8) :
      ((s.shared.maps g).records index).reservation = .held →
      bytes.length = ((s.shared.maps g).records index).payload.length →
      Acts s (s.onMap g fun map => map.modify index fun r => { r with payload := bytes })
  | abandon (g index : ℕ) : ((s.shared.maps g).records index).reservation = .held →
      Acts s (s.onMap g fun map =>
        { map.modify index fun r => { r with reserved := false, reservation := .absent } with
          releasing := map.releasing + 1 })
  | releaseMap (g : ℕ) : 0 < (s.shared.maps g).releasing →
      Acts s (s.onMap g fun map => { map with releasing := map.releasing - 1 })
  | dropExport (g : ℕ) : 0 < (s.shared.maps g).exports →
      Acts s (s.onMap g fun map => { map with exports := map.exports - 1 })
  /-- the producer's program counter -/
  | flow (pc : Pc) (outcome : Outcome) (released : ℕ) : s.producer.pc.Flows s pc →
      Acts s (s.flow pc outcome released)
  /-- calls that begin with more than a check -/
  | commitCall (g index : ℕ) (descriptor : FrameDescriptor) : s.producer.pc = .idle →
      ((s.shared.maps g).records index).reservation = .held →
      Acts s ((s.onMap g fun map =>
        map.modify index fun r => { r with reservation := .committing }).goto
          (.commit g index descriptor))
  | offerCall (i : ℕ) : s.producer.pc = .idle → i ∈ s.producer.claims →
      Acts s ((s.callPage i [.offerActive s.producer.resources]).goto (.offering i))
  | registerCall (i : ℕ) : s.producer.pc = .idle → i ∈ s.producer.claims →
      Acts s ((s.callPage i [.registerActive]).goto (.registering i))
  /-- `poll_cleanup` -/
  | observe (i : ℕ) (todo : List ℕ) (goal : Goal) (inc : Incarnation) :
      s.producer.pc = .cleanup (.observers (i :: todo)) goal → s.incarnations i = some inc →
      inc.observer.todo = [] →
      Acts s ((s.onPage i fun inc =>
        { inc with observer := { inc.observer with todo := [.process] } }).goto
          (.cleanup (.polling i todo) goal))
  | observed (i : ℕ) (todo : List ℕ) (goal : Goal) (released : ℕ) :
      s.producer.pc = .cleanup (.polling i todo) goal →
      Acts s ((s.onPage i fun inc =>
        { inc with observer := { inc.observer with released := 0 } }).flow
          (.cleanup (.observers todo) goal) s.producer.outcome released)
  | collect (i : ℕ) (todo : List ℕ) (goal : Goal) : s.Drained i todo goal →
      Acts s (s.collect i todo goal)
  | remove (i : ℕ) (todo : List ℕ) (goal : Goal) (inc : Incarnation) :
      s.producer.pc = .cleanup (.remove i todo) goal → s.incarnations i = some inc →
      inc.observer.todo = [] →
      Acts s { s.onPage i fun inc =>
          { inc with observer := { inc.observer with present := false } } with
        producer := { s.producer with
          claims := s.producer.claims.filter (· ≠ i)
          pc := .cleanup (.quiescent todo) goal } }
  | reclaim (index : ℕ) (goal : Goal) (r : RetiredAllocation) :
      s.producer.pc = .cleanup (.count index) goal → s.producer.retired[index]? = some r →
      (s.shared.maps r.generation).strongCount = 1 → r.native = false →
      Acts s (s.reclaim index r.generation goal)
  | unready (index : ℕ) (goal : Goal) (r : RetiredAllocation) :
      s.producer.pc = .cleanup (.ready index) goal → s.producer.retired[index]? = some r →
      Acts s ((s.onMap r.generation fun map => { map with ready := false }).goto
        (.cleanup (.retired (index + 1)) goal))
  | ready (index : ℕ) (goal : Goal) (r : RetiredAllocation) :
      s.producer.pc = .cleanup (.ready index) goal → s.producer.retired[index]? = some r →
      Acts s ((s.onMap r.generation fun map => { map with ready := true }).reclaim index
        r.generation goal)
  | attach (e : Env) (holding : UInt32) (remote : Bool) :
      s.producer.pc = .resume (.attach holding remote) → Acts s (s.attach e holding remote)
  | advance (e : Env) : s.producer.pc = .resume .advance → Acts s (s.advance e)
  /-- the slot scan and the publication -/
  | retire (w : Writer) (off generation : ℕ) : s.producer.pc = .scanRetire w off generation →
      Acts s ((s.onMap s.current fun map =>
        map.modify (s.scanIndex off) fun r => { r with state := 2 * generation }).goto
          (if generation = 0 then .finds s off w
            else .scanClaims w off generation s.claimProbes))
  | reserve (index : ℕ) : s.producer.pc = .reserveFlag index →
      Acts s ((s.onMap s.current fun map =>
        map.modify index fun r => { r with reserved := true, reservation := .held }).finish
          (.reserved index))
  | stage (off : ℕ) (descriptor : FrameDescriptor) (bytes : List UInt8) (hostTimeNs : ℕ) :
      s.producer.pc = .prepare off →
      Acts s ((s.onMap s.current fun map =>
        map.modify (s.scanIndex off) fun r => { r with payload := bytes }).goto
          (.describe (s.publication (s.scanIndex off) descriptor [] hostTimeNs)
            (.finish (.published
              (s.publication (s.scanIndex off) descriptor [] hostTimeNs).descriptor.cursor))))
  | copy (index : ℕ) (descriptor : FrameDescriptor) (bytes : List UInt8) (hostTimeNs : ℕ) :
      s.producer.pc = .copy index descriptor bytes →
      Acts s ((s.onMap s.current fun map =>
        map.modify index fun r =>
          { r with payload := bytes ++ r.payload.drop bytes.length }).goto
          (.describe (s.publication index descriptor bytes hostTimeNs) (.finish (.published
            (s.publication index descriptor bytes hostTimeNs).descriptor.cursor))))
  | describe (p : Publication) (after : After) : s.producer.pc = .describe p after →
      Acts s ((s.onMap p.generation fun map =>
        map.modify p.index fun r => { r with descriptor := p.descriptor }).goto (.store p after))
  | store (p : Publication) (after : After) : s.producer.pc = .store p after →
      Acts s ({ s.onMap p.generation fun map =>
          map.modify p.index fun r => { r with state := 2 * p.descriptor.cursor + 1 } with
        log := Function.update s.log p.descriptor.cursor (some p) }.goto (.ring p after))
  | ring (p : Publication) (after : After) : s.producer.pc = .ring p after →
      Acts s ((s.onControl fun c => { c with
        ring := Function.update c.ring ((p.descriptor.cursor - 1) % s.shared.history)
          (p.index + 1) }).goto (.latest p after))
  | latest (p : Publication) (after : After) : s.producer.pc = .latest p after →
      Acts s { s.onControl fun c => { c with latest := p.descriptor.cursor } with
        producer := { s.producer with
          cursor := p.descriptor.cursor
          nextSlot := (p.index + 1) % (s.shared.maps p.generation).layout.resources
          pc := .pages (.signal .data) s.producer.claims after } }
  | release (g index : ℕ) (outcome : Outcome) : s.producer.pc = .release g index outcome →
      Acts s ((s.onMap g fun map =>
        map.modify index fun r => { r with reserved := false, reservation := .absent }).finish
          outcome)
  /-- reconfiguration -/
  | begin (payloadCapacity externalBytes : ℕ) :
      s.producer.pc = .begin payloadCapacity externalBytes →
      Acts s (s.beginReconfiguration payloadCapacity externalBytes)
  | unconfigure (layout : ResourceLayout) : s.producer.pc = .unconfigure layout →
      Acts s ((s.onControl fun c => { c with configuration := 0 }).goto (.unpublishLoad layout 0))
  | unpublish (layout : ResourceLayout) (index state : ℕ) :
      s.producer.pc = .unpublish layout index state →
      Acts s ((s.onMap s.current fun map =>
        map.modify index fun r => { r with state := 2 * (state / 2) }).goto
          (.unpublishLoad layout (index + 1)))
  | firstCursor (layout : ResourceLayout) : s.producer.pc = .firstCursor layout →
      Acts s { s.onControl fun c => { c with firstCursor := s.producer.cursor + 1 } with
        producer := { s.producer with
          retired := s.producer.retired ++ [⟨s.current, s.shared.native⟩]
          resources := none
          pendingLayout := some layout
          pc := .epochLoad .advance } }
  | configure (g : ℕ) : s.producer.pc = .configure g →
      Acts s ((s.onControl fun c => { c with configuration := g }).goto
        (.epochLoad (.finish (.ready g))))
  | epoch (value : ℕ) (after : After) : s.producer.pc = .epoch value after →
      value + 1 < 2 ^ 64 → s.shared.control.reconfigurationEpoch = value →
      Acts s ((s.onControl fun c => { c with reconfigurationEpoch := value + 1 }).goto
        (.pages (.signal .reconfiguration) s.producer.claims after))
  /-- the claim pages -/
  | terminate (after : After) : s.producer.pc = .terminate after →
      Acts s ((s.onControl fun c => { c with terminal := 1 }).goto
        (.pages .close s.producer.claims after))
  | page (call : PageCall) (i : ℕ) (todo : List ℕ) (after : After) :
      s.producer.pc = .pages call (i :: todo) after →
      Acts s ((s.callPage i [.page call.op]).goto (.paged call i todo after))
  | close (call : PageCall) (i : ℕ) : s.producer.pc = .pages call [] (.close i) →
      Acts s (s.continue_ (.close i))
  | register (i : ℕ) (inc : Incarnation) : s.producer.pc = .registering i →
      s.incarnations i = some inc → inc.host = [] → inc.observer.todo = [] →
      Acts s ((s.onPage i fun inc =>
        { inc with observer := { inc.observer with todo := [.register] } }).goto (.registered i))
  | retry (i : ℕ) (inc : Incarnation) (outcome : Outcome) : s.producer.pc = .retrying i →
      s.incarnations i = some inc → inc.observer.todo = [] →
      Acts s ((s.onPage i fun inc =>
        { inc with observer := { inc.observer with failure := false } }).finish outcome)
  | exported (g : ℕ) : s.producer.pc = .exporting → s.shared.control.terminal = 0 →
      s.producer.resources = some g →
      Acts s ((s.onMap g fun map => { map with exports := map.exports + 1 }).finish .exported)
  | dropObserver (i : ℕ) (todo : List ℕ) (inc : Incarnation) :
      s.producer.pc = .dropping (i :: todo) → s.incarnations i = some inc →
      inc.observer.todo = [] →
      Acts s ((s.onPage i fun inc =>
        { inc with observer := { inc.observer with present := false } }).goto (.dropping todo))

/-! ### Nothing else happens -/

variable {s s' : Arena}

/-- A move of the program counter. -/
lemma Acts.of_flow {pc : Pc} (h : s.producer.pc.Flows s pc) {producer : Producer}
    (hp : producer = { s.producer with
      pc, outcome := producer.outcome, released := producer.released }) :
    Acts s { s with producer } := by
  rw [hp]
  exact .flow pc _ _ h

lemma Acts.of_goto {pc : Pc} (h : s.producer.pc.Flows s pc) : Acts s (s.goto pc) :=
  .of_flow h rfl

lemma Acts.of_finish {o : Outcome} (h : s.producer.pc.Flows s .idle) : Acts s (s.finish o) :=
  .of_flow h rfl

lemma Acts.of_fail {e : ArenaError} (h : s.producer.pc.Flows s .idle) : Acts s (s.fail e) :=
  .of_flow h rfl

lemma Acts.of_scanFrom {w : Writer} {off : ℕ} (h : s.producer.pc.Flows s (Pc.scans s w off)) :
    Acts s (s.scanFrom w off) := by
  rw [Pc.scans] at h
  simp only [scanFrom]
  split_ifs at h ⊢
  · exact .of_goto h
  · exact .of_finish h

/-- A change of records keeps every layout. -/
lemma onMap_layout (s : Arena) (g : ℕ) (f : ResourceMap → ResourceMap)
    (hf : ∀ map, (f map).layout = map.layout) (g' : ℕ) :
    ((s.onMap g f).shared.maps g').layout = (s.shared.maps g').layout := by
  by_cases hg : g' = g
  · subst hg
    simp only [onMap, Function.update_self, hf]
  · simp only [onMap, Function.update_of_ne hg]

lemma modify_layout (s : Arena) (g index : ℕ) (f : Record → Record) (g' : ℕ) :
    ((s.onMap g fun map => map.modify index f).shared.maps g').layout =
      (s.shared.maps g').layout :=
  onMap_layout s g (fun map => map.modify index f) (fun _ => rfl) g'

lemma finds_modify {g index : ℕ} {f : Record → Record} (off : ℕ) (w : Writer) :
    Pc.finds (s.onMap g fun map => map.modify index f) off w = Pc.finds s off w := by
  have hi : (s.onMap g fun map => map.modify index f).scanIndex off = s.scanIndex off := by
    simp only [scanIndex, layout]
    rw [modify_layout]
    rfl
  cases w with
  | publish source => cases source <;> simp [Pc.finds, hi]
  | reserve => simp [Pc.finds, hi]

lemma found_eq (s : Arena) (off : ℕ) (w : Writer) : s.found off w = s.goto (Pc.finds s off w) := by
  cases w with
  | publish source => cases source <;> rfl
  | reserve => rfl

lemma acts_of_begin {op : Op} (hpc : s.producer.pc = .idle) (h : s.begin op = some s') :
    Acts s s' := by
  have flows : ∀ {pc : Pc}, Pc.Flows s .idle pc → s.producer.pc.Flows s pc := by
    intro pc hf
    rw [hpc]
    exact hf
  cases op with
  | publish source =>
      cases source with
      | cpu descriptor bytes =>
          rw [begin, Option.some.injEq] at h
          subst h
          exact .of_goto (flows (.terminal _))
      | native =>
          rw [begin, Option.some.injEq] at h
          subst h
          split_ifs
          · exact .of_fail (flows .refused)
          · exact .of_goto (flows (.terminal _))
  | reserve =>
      rw [begin, Option.some.injEq] at h
      subst h
      split_ifs
      · exact .of_fail (flows .refused)
      · exact .of_goto (flows (.terminal _))
  | commit g index descriptor =>
      rw [begin] at h
      split_ifs at h with hr
      rw [Option.some.injEq] at h
      subst h
      exact .commitCall g index descriptor hpc hr
  | attach holding remote =>
      rw [begin, Option.some.injEq] at h
      subst h
      exact .of_goto (flows (.terminal _))
  | close i =>
      rw [begin, Option.some.injEq] at h
      subst h
      split_ifs with hi
      · exact .of_goto (flows (.close i hi))
      · exact .of_fail (flows .refused)
  | stop =>
      rw [begin, Option.some.injEq] at h
      subst h
      exact .of_goto (flows .stop)
  | pollCleanup =>
      rw [begin, Option.some.injEq] at h
      subst h
      exact .of_flow (flows (.cleanup _ (Or.inl rfl))) rfl
  | pollShutdownReady =>
      rw [begin, Option.some.injEq] at h
      subst h
      exact .of_flow (flows (.cleanup _ (Or.inr rfl))) rfl
  | reconfigureCpu payloadCapacity =>
      rw [begin, Option.some.injEq] at h
      subst h
      split_ifs
      · exact .of_fail (flows .refused)
      · exact .of_goto (flows (.reconfigure _ _))
  | reconfigureNative externalBytes =>
      rw [begin, Option.some.injEq] at h
      subst h
      split_ifs
      · exact .of_goto (flows (.reconfigure _ _))
      · exact .of_fail (flows .refused)
  | advanceReconfiguration =>
      rw [begin, Option.some.injEq] at h
      subst h
      exact .of_goto (flows (.terminal _))
  | configurationOffer i =>
      rw [begin, Option.some.injEq] at h
      subst h
      split_ifs with hi
      · exact .offerCall i hpc hi
      · exact .of_fail (flows .refused)
  | registerReleaseTimeline i =>
      rw [begin, Option.some.injEq] at h
      subst h
      split_ifs with hi
      · exact .registerCall i hpc hi
      · exact .of_fail (flows .refused)
  | retryCleanup i =>
      rw [begin, Option.some.injEq] at h
      subst h
      split_ifs with hi
      · exact .of_goto (flows (.retryCleanup i hi))
      · exact .of_fail (flows .refused)
  | exportWriter =>
      rw [begin, Option.some.injEq] at h
      subst h
      split_ifs
      · exact .of_fail (flows .refused)
      · exact .of_goto (flows .exportWriter)
  | drop =>
      rw [begin, Option.some.injEq] at h
      subst h
      exact .of_goto (flows .drop)

lemma acts_of_cleanupStep {e : Env} {goal : Goal} {c : CleanupPc}
    (hpc : s.producer.pc = .cleanup c goal) (h : s.cleanupStep e goal c = some s') :
    Acts s s' := by
  have flows : ∀ {c' : CleanupPc}, c.Flows s c' → Acts s (s.goto (.cleanup c' goal)) := by
    intro c' hf
    exact .of_goto (by rw [hpc]; exact .clean c c' goal hf)
  cases c with
  | observers todo =>
      cases todo with
      | nil =>
          rw [cleanupStep, Option.some.injEq] at h
          subst h
          exact flows .observed
      | cons i todo =>
          simp only [cleanupStep, Option.bind_eq_bind] at h
          obtain ⟨inc, hi, h⟩ := Option.bind_eq_some_iff.mp h
          split_ifs at h with ho
          cases h
          exact .observe i todo goal inc hpc hi ho
  | polling i todo =>
      simp only [cleanupStep, Option.bind_eq_bind] at h
      obtain ⟨inc, hi, h⟩ := Option.bind_eq_some_iff.mp h
      split_ifs at h with ho
      cases h
      exact .observed i todo goal _ hpc
  | quiescent todo =>
      cases todo with
      | nil =>
          rw [cleanupStep, Option.some.injEq] at h
          subst h
          exact flows .collected
      | cons i todo =>
          simp only [cleanupStep, Option.bind_eq_bind] at h
          obtain ⟨inc, hi, h⟩ := Option.bind_eq_some_iff.mp h
          cases h
          split_ifs with hq
          · exact flows (.active i todo)
          · exact flows (.acknowledged i todo inc hi hq)
  | mapping i m todo =>
      simp only [cleanupStep, Option.bind_eq_bind] at h
      obtain ⟨inc, hi, h⟩ := Option.bind_eq_some_iff.mp h
      cases h
      split_ifs with hm hlast
      · exact flows (.mapped i m todo)
      · exact flows (.unmapped i m todo inc hi (by simpa using hm) hlast)
      · rw [claimsFrom, hi]
        simp only [Option.map_some, Option.getD_some]
        split_ifs with hf
        · exact .collect i todo goal ⟨inc, hi, Or.inl ⟨m, hpc, by simpa using hm, by omega,
            by omega⟩⟩
        · exact flows (.allUnmapped i m todo inc hi (by simpa using hm) (by omega) (by omega))
  | claim i k todo =>
      simp only [cleanupStep, Option.bind_eq_bind] at h
      obtain ⟨inc, hi, h⟩ := Option.bind_eq_some_iff.mp h
      cases h
      split_ifs with hc
      · exact flows (.claimed i k todo)
      · rw [claimsFrom, hi]
        simp only [Option.map_some, Option.getD_some]
        split_ifs with hf
        · exact .collect i todo goal ⟨inc, hi, Or.inr ⟨k, hpc, by simpa using hc, hf⟩⟩
        · exact flows (.unclaimed i k todo inc hi (by simpa using hc) (by omega))
  | remove i todo =>
      simp only [cleanupStep, Option.bind_eq_bind] at h
      obtain ⟨inc, hi, h⟩ := Option.bind_eq_some_iff.mp h
      split_ifs at h with ho
      cases h
      exact .remove i todo goal inc hpc hi ho
  | retired index =>
      rw [cleanupStep] at h
      split at h
      · rename_i hr
        rw [Option.some.injEq] at h
        subst h
        exact .of_goto (by rw [hpc]; exact .cleaned index goal hr)
      · rename_i r hr
        rw [Option.some.injEq] at h
        subst h
        exact flows (.probe index r hr)
  | probe index probes =>
      cases probes with
      | nil =>
          rw [cleanupStep, Option.some.injEq] at h
          subst h
          exact flows (.probed index)
      | cons p probes =>
          simp only [cleanupStep, Option.bind_eq_bind] at h
          obtain ⟨r, hr, h⟩ := Option.bind_eq_some_iff.mp h
          cases p with
          | mapping i m =>
              obtain ⟨inc, hi, h⟩ := Option.bind_eq_some_iff.mp h
              cases h
              split_ifs with hm
              · exact flows (.inUse index _ probes)
              · exact flows (.mappingClear index i m probes r inc hr hi hm)
          | record i slot =>
              obtain ⟨inc, hi, h⟩ := Option.bind_eq_some_iff.mp h
              cases h
              split_ifs with hm
              · exact flows (.recordClear index i slot probes r hr hm)
              · exact flows (.recordLoaded index i slot probes r inc hr hi)
          | claim i cursor k =>
              obtain ⟨inc, hi, h⟩ := Option.bind_eq_some_iff.mp h
              cases h
              split_ifs with hm
              · exact flows (.inUse index _ probes)
              · exact flows (.claimClear index i cursor k probes inc hi hm)
  | count index =>
      simp only [cleanupStep, Option.bind_eq_bind] at h
      obtain ⟨r, hr, h⟩ := Option.bind_eq_some_iff.mp h
      cases h
      split_ifs with hc hn
      · exact flows (.owned index)
      · exact flows (.counted index r hr (by simpa using hc) hn)
      · exact .reclaim index goal r hpc hr (by simpa using hc) (by simpa using hn)
  | ready index =>
      simp only [cleanupStep, Option.bind_eq_bind] at h
      obtain ⟨r, hr, h⟩ := Option.bind_eq_some_iff.mp h
      cases h
      by_cases hf : e.fail = true
      · rw [if_pos hf]
        exact .of_fail (by rw [hpc]; exact .unready index goal)
      rw [if_neg hf]
      by_cases hs : e.skip = true
      · rw [if_pos hs, hs]
        exact .unready index goal r hpc hr
      · rw [if_neg hs, Bool.not_eq_true _ |>.mp hs]
        exact .ready index goal r hpc hr

lemma acts_of_resume {e : Env} {goal : Goal} (hpc : s.producer.pc = .resume goal) :
    Acts s (s.resume e goal) := by
  have flows : ∀ {pc : Pc}, Pc.Flows s (.resume goal) pc → s.producer.pc.Flows s pc := by
    intro pc hf
    rw [hpc]
    exact hf
  cases goal with
  | publish source =>
      simp only [resume]
      split
      · exact .of_finish (flows (.resumed _))
      · rename_i g hg
        split_ifs with hlen hc
        · exact .of_fail (flows (.resumed _))
        · exact .of_goto (flows (.exhausted _ hc))
        · exact .of_scanFrom (flows (.publish source g hg (by omega) hc))
  | reserve =>
      simp only [resume]
      by_cases hc : s.producer.cursor = maxGeneration
      · rw [if_pos hc]
        exact .of_goto (flows (.exhausted _ hc))
      rw [if_neg hc]
      split
      · exact .of_finish (flows (.resumed _))
      · rename_i g hg
        split_ifs with hp
        · exact .of_fail (flows (.resumed _))
        · exact .of_scanFrom (flows (.reserve g hg hp hc))
  | attach holding remote => exact .attach e holding remote hpc
  | advance => exact .advance e hpc
  | poll => exact .of_finish (flows (.resumed _))
  | shutdown => exact .of_goto (flows .shutdown)

lemma acts_of_scanStep (h : s.scanStep s.producer.pc = some s') : Acts s s' := by
  cases hpc : s.producer.pc with
  | scan w off =>
      simp only [scanStep, hpc, Option.some.injEq] at h
      subst h
      split_ifs with hr
      · exact .of_scanFrom (by rw [hpc]; exact .reserved w off hr)
      · exact .of_goto (by rw [hpc]; exact .unreserved w off (by simpa using hr))
  | scanState w off =>
      simp only [scanStep, hpc, Option.some.injEq] at h
      subst h
      split_ifs with hr
      · exact .of_scanFrom (by rw [hpc]; exact .retained w off hr.1 hr.2)
      · exact .of_goto (by rw [hpc]; exact .stale w off (by omega))
  | scanRetire w off generation =>
      simp only [scanStep, hpc, Option.some.injEq] at h
      have hact := Acts.retire w off generation hpc
      subst h
      split_ifs at hact ⊢ with h0
      · rw [found_eq, finds_modify]
        exact hact
      · exact hact
  | scanClaims w off generation probes =>
      cases probes with
      | nil =>
          simp only [scanStep, hpc, Option.some.injEq] at h
          subst h
          rw [found_eq]
          exact .of_goto (by rw [hpc]; exact .found w off generation)
      | cons p probes =>
          obtain ⟨i, k⟩ := p
          simp only [scanStep, hpc, Option.bind_eq_bind] at h
          obtain ⟨inc, hi, h⟩ := Option.bind_eq_some_iff.mp h
          cases h
          split_ifs with hc
          · exact .of_scanFrom (by rw [hpc]; exact .claimed w off generation i k probes inc hi hc)
          · exact .of_goto (by rw [hpc]; exact .unclaimed w off generation i k probes inc hi hc)
  | reserveFlag index =>
      simp only [scanStep, hpc, Option.some.injEq] at h
      subst h
      exact .reserve index hpc
  | _ => simp [scanStep, hpc] at h

lemma acts_of_publishStep {e : Env} (h : s.publishStep e s.producer.pc = some s') : Acts s s' := by
  cases hpc : s.producer.pc with
  | prepare off =>
      simp only [publishStep, hpc, Option.some.injEq] at h
      subst h
      split_ifs
      · exact .of_fail (by rw [hpc]; exact .prepareFailed off)
      · exact .of_scanFrom (by rw [hpc]; exact .prepareSkipped off)
      · exact .stage off e.descriptor e.bytes e.value hpc
  | copy index descriptor bytes =>
      simp only [publishStep, hpc, Option.some.injEq] at h
      subst h
      exact .copy index descriptor bytes e.value hpc
  | describe p after =>
      simp only [publishStep, hpc, Option.some.injEq] at h
      subst h
      exact .describe p after hpc
  | store p after =>
      simp only [publishStep, hpc, Option.some.injEq] at h
      subst h
      exact .store p after hpc
  | ring p after =>
      simp only [publishStep, hpc, Option.some.injEq] at h
      subst h
      exact .ring p after hpc
  | latest p after =>
      simp only [publishStep, hpc, Option.some.injEq] at h
      subst h
      exact .latest p after hpc
  | commit g index descriptor =>
      simp only [publishStep, hpc, Option.some.injEq] at h
      subst h
      split_ifs with h1 h2 h3 h4
      · exact .of_goto (by rw [hpc]; exact .commitRefused g index descriptor _)
      · exact .of_goto (by rw [hpc]; exact .commitRefused g index descriptor _)
      · exact .of_goto (by rw [hpc]; exact .commitRefused g index descriptor _)
      · exact .of_goto (by rw [hpc]; exact .commitExhausted g index descriptor h4)
      · refine .of_goto ?_
        rw [hpc]
        exact .commit g index descriptor e.value (by simpa using h1) (by simpa using h2)
          (by omega) h4
  | release g index outcome =>
      simp only [publishStep, hpc, Option.some.injEq] at h
      subst h
      exact .release g index outcome hpc
  | _ => simp [publishStep, hpc] at h

lemma acts_of_reconfigureStep (h : s.reconfigureStep s.producer.pc = some s') : Acts s s' := by
  cases hpc : s.producer.pc with
  | begin payloadCapacity externalBytes =>
      simp only [reconfigureStep, hpc, Option.some.injEq] at h
      subst h
      exact .begin payloadCapacity externalBytes hpc
  | unconfigure layout =>
      simp only [reconfigureStep, hpc, Option.some.injEq] at h
      subst h
      exact .unconfigure layout hpc
  | unpublishLoad layout index =>
      simp only [reconfigureStep, hpc, Option.some.injEq] at h
      subst h
      split_ifs with hi
      · exact .of_goto (by rw [hpc]; exact .unpublishLoad layout index hi)
      · exact .of_goto (by rw [hpc]; exact .unpublished layout index (by omega))
  | unpublish layout index state =>
      simp only [reconfigureStep, hpc, Option.some.injEq] at h
      subst h
      exact .unpublish layout index state hpc
  | firstCursor layout =>
      simp only [reconfigureStep, hpc, Option.some.injEq] at h
      subst h
      exact .firstCursor layout hpc
  | configure g =>
      simp only [reconfigureStep, hpc, Option.some.injEq] at h
      subst h
      exact .configure g hpc
  | epochLoad after =>
      simp only [reconfigureStep, hpc, Option.some.injEq] at h
      subst h
      exact .of_goto (by rw [hpc]; exact .epochLoad after)
  | epoch value after =>
      simp only [reconfigureStep, hpc, Option.some.injEq] at h
      subst h
      split_ifs with h1 h2
      · exact .of_goto (by rw [hpc]; exact .epochExhausted value after)
      · exact .epoch value after hpc (by omega) h2
      · exact .of_goto (by rw [hpc]; exact .epochRetry value after)
  | _ => simp [reconfigureStep, hpc] at h

lemma acts_of_pagesStep {e : Env} (h : s.pagesStep e s.producer.pc = some s') : Acts s s' := by
  cases hpc : s.producer.pc with
  | terminate after =>
      simp only [pagesStep, hpc, Option.some.injEq] at h
      subst h
      exact .terminate after hpc
  | pages call todo after =>
      cases todo with
      | nil =>
          simp only [pagesStep, hpc, Option.some.injEq] at h
          subst h
          cases after with
          | finish o => exact .of_finish (by rw [hpc]; exact .finished call o)
          | release g index o => exact .of_goto (by rw [hpc]; exact .released call g index o)
          | advance => exact .of_goto (by rw [hpc]; exact .advance call)
          | close i => exact .close call i hpc
          | drop => exact .of_goto (by rw [hpc]; exact .dropped call)
      | cons i todo =>
          simp only [pagesStep, hpc, Option.some.injEq] at h
          subst h
          exact .page call i todo after hpc
  | paged call i todo after =>
      simp only [pagesStep, hpc, Option.bind_eq_bind] at h
      obtain ⟨inc, hi, h⟩ := Option.bind_eq_some_iff.mp h
      by_cases hh : inc.host = []
      swap
      · rw [if_neg hh] at h
        cases h
      rw [if_pos hh] at h
      cases h
      split_ifs with hf
      · split
        · rename_i g index o
          exact .of_goto (by rw [hpc]; exact .pagesReleased call i todo g index o inc hi hh hf.1 hf.2)
        · rename_i hne
          exact .of_fail (by rw [hpc]; exact .pagesFailed call i todo after inc hi hh hf.1 hf.2 hne)
      · exact .of_goto (by rw [hpc]; exact .paged call i todo after inc hi hh)
  | offering i =>
      simp only [pagesStep, hpc, Option.bind_eq_bind] at h
      obtain ⟨inc, hi, h⟩ := Option.bind_eq_some_iff.mp h
      split_ifs at h with hh
      cases h
      have hf : s.producer.pc.Flows s .idle := by rw [hpc]; exact .offered i inc hi hh
      split
      · exact .of_finish hf
      · exact .of_fail hf
      · exact .of_finish hf
  | registering i =>
      simp only [pagesStep, hpc, Option.bind_eq_bind] at h
      obtain ⟨inc, hi, h⟩ := Option.bind_eq_some_iff.mp h
      by_cases hh : inc.host = []
      swap
      · rw [if_neg hh] at h
        cases h
      rw [if_pos hh] at h
      split at h
      · cases h
        exact .of_fail (by rw [hpc]; exact .registering i inc hi hh)
      · split_ifs at h with ho
        cases h
        exact .register i inc hpc hi hh ho
  | registered i =>
      simp only [pagesStep, hpc, Option.bind_eq_bind] at h
      obtain ⟨inc, hi, h⟩ := Option.bind_eq_some_iff.mp h
      split_ifs at h with ho
      cases h
      have hf : s.producer.pc.Flows s .idle := by rw [hpc]; exact .registered i inc hi ho
      split
      · exact .of_finish hf
      · exact .of_fail hf
      · exact .of_finish hf
  | retrying i =>
      simp only [pagesStep, hpc, Option.bind_eq_bind] at h
      obtain ⟨inc, hi, h⟩ := Option.bind_eq_some_iff.mp h
      by_cases ho : inc.observer.todo = []
      swap
      · rw [if_neg ho] at h
        cases h
      rw [if_pos ho] at h
      cases h
      split_ifs
      · exact .of_fail (by rw [hpc]; exact .retried i)
      · exact .retry i inc _ hpc hi ho
      · exact .retry i inc _ hpc hi ho
      · exact .retry i inc _ hpc hi ho
  | exporting =>
      simp only [pagesStep, hpc, Option.some.injEq] at h
      subst h
      have hf : s.producer.pc.Flows s .idle := by rw [hpc]; exact .unexported
      split_ifs with ht
      · exact .of_fail hf
      split
      · exact .of_finish hf
      · rename_i g hg
        split_ifs
        · exact .of_fail hf
        · exact .exported g hpc (by simpa using ht) hg
  | dropping todo =>
      cases todo with
      | nil =>
          simp only [pagesStep, hpc, Option.some.injEq] at h
          subst h
          exact .of_goto (by rw [hpc]; exact .gone)
      | cons i todo =>
          simp only [pagesStep, hpc, Option.bind_eq_bind] at h
          obtain ⟨inc, hi, h⟩ := Option.bind_eq_some_iff.mp h
          split_ifs at h with ho
          cases h
          exact .dropObserver i todo inc hpc hi ho
  | _ => simp [pagesStep, hpc] at h

/-- **The step function does nothing else.** -/
theorem acts_of_step {l : Label} (h : s.step l = some s') : Acts s s' := by
  cases l with
  | call op =>
      rw [step] at h
      split_ifs at h with hpc
      exact acts_of_begin hpc h
  | producer e =>
      simp only [step, producerStep] at h
      split at h
      case h_4 goal hpc =>
          rw [Option.some.injEq] at h
          subst h
          split_ifs with ht
          · exact .of_fail (by rw [hpc]; exact .closed goal)
          · exact .of_flow (by rw [hpc]; exact .opened goal (by simpa using ht)) rfl
      case h_5 c goal hpc => exact acts_of_cleanupStep hpc h
      case h_6 goal hpc =>
          rw [Option.some.injEq] at h
          subst h
          exact acts_of_resume hpc
      case h_7 hpc =>
          rw [Option.some.injEq] at h
          subst h
          exact .of_finish (by rw [hpc]; exact .shutdownReady)
      all_goals first
        | cases h
        | exact acts_of_scanStep h
        | exact acts_of_publishStep h
        | exact acts_of_reconfigureStep h
        | exact acts_of_pagesStep h
  | incarnation i l =>
      simp only [step, Option.bind_eq_bind] at h
      obtain ⟨inc, hi, h⟩ := Option.bind_eq_some_iff.mp h
      obtain ⟨inc', hl, h⟩ := Option.bind_eq_some_iff.mp h
      cases h
      exact .incarnation i inc inc' hi (Incarnation.acts_of_step hl)
  | write g index bytes =>
      simp only [step] at h
      split_ifs at h with hr
      cases h
      exact .write g index bytes hr.1 hr.2
  | abandon g index =>
      simp only [step] at h
      split_ifs at h with hr
      cases h
      exact .abandon g index hr
  | releaseMap g =>
      simp only [step] at h
      split_ifs at h with hr
      cases h
      exact .releaseMap g hr
  | dropExport g =>
      simp only [step] at h
      split_ifs at h with hr
      cases h
      exact .dropExport g hr

end Arena

end Jackstay.Acquisition
