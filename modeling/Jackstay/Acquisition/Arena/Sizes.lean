import Jackstay.Acquisition.Arena.Exclusivity

/-!
The sizes of the slots.

* `Pc.source`: what the running `publish` was called with. `Pc.Flows.source`: it is compared
  with the capacity before the scan.
* `Arena.Sized`: every slot of a CPU allocation has its payload capacity, and a native frame
  is staged in an allocation without bytes only. `Reachable.sized`: in every reachable arena.
-/

namespace Jackstay.Acquisition

open Transition

/-- The scan is running. -/
def Pc.inScan : Pc → Bool
  | .scan _ _ => true
  | .scanState _ _ => true
  | .scanRetire _ _ _ => true
  | .scanClaims _ _ _ _ => true
  | .prepare _ => true
  | .copy _ _ _ => true
  | _ => false

/-- What the running `publish` was called with, until it has a slot. -/
def Pc.source : Pc → Option Source
  | .terminal (.publish source) => some source
  | .cleanup _ (.publish source) => some source
  | .resume (.publish source) => some source
  | .scan (.publish source) _ => some source
  | .scanState (.publish source) _ => some source
  | .scanRetire (.publish source) _ _ => some source
  | .scanClaims (.publish source) _ _ _ => some source
  | .prepare _ => some .native
  | .copy _ d bytes => some (.cpu d bytes)
  | _ => none

lemma Pc.source_scans {s : Arena} {w : Writer} {off : ℕ} {source : Source}
    (h : (Pc.scans s w off).source = some source) : w = .publish source := by
  rw [Pc.scans] at h
  split_ifs at h
  · cases w with
    | publish source' =>
        cases h
        rfl
    | reserve => cases h
  · cases h

lemma Pc.source_finds {s : Arena} {w : Writer} {off : ℕ} {source : Source}
    (h : (Pc.finds s off w).source = some source) : w = .publish source := by
  rcases w with (_ | _) | _
  · cases h
    rfl
  · cases h
    rfl
  · cases h

/-- The control flow of a running call keeps what it was called with, and compares it with
the capacity before the scan. -/
lemma Pc.Flows.source {s : Arena} {pc pc' : Pc} (h : Flows s pc pc') (hidle : pc ≠ .idle)
    {source : Source} (hsource : pc'.source = some source) :
    pc.source = some source ∧
      (pc'.inScan = true → pc.inScan = true ∨ source.len ≤ s.layout.payloadCapacity) := by
  cases h with
  | refused => exact absurd rfl hidle
  | terminal goal => exact absurd rfl hidle
  | cleanup goal hgoal => exact absurd rfl hidle
  | opened goal hopen =>
      cases goal with
      | publish source' => exact ⟨hsource, by rintro ⟨⟩⟩
      | _ => cases hsource
  | clean c c' goal hc =>
      cases goal with
      | publish source' => exact ⟨hsource, by rintro ⟨⟩⟩
      | _ => cases hsource
  | cleaned index goal hnone =>
      cases goal with
      | publish source' => exact ⟨hsource, by rintro ⟨⟩⟩
      | _ => cases hsource
  | publish source' g hres hlen hmax =>
      cases Pc.source_scans hsource
      exact ⟨rfl, fun _ => Or.inr hlen⟩
  | reserve g hres hcap hmax => cases Pc.source_scans hsource
  | reserved w off hflag =>
      cases Pc.source_scans hsource
      exact ⟨rfl, fun _ => Or.inl rfl⟩
  | unreserved w off hflag =>
      cases w with
      | publish source' => exact ⟨hsource, fun _ => Or.inl rfl⟩
      | reserve => cases hsource
  | retained w off hzero hold =>
      cases Pc.source_scans hsource
      exact ⟨rfl, fun _ => Or.inl rfl⟩
  | stale w off hstale =>
      cases w with
      | publish source' => exact ⟨hsource, fun _ => Or.inl rfl⟩
      | reserve => cases hsource
  | found w off generation =>
      cases Pc.source_finds hsource
      exact ⟨rfl, fun _ => Or.inl rfl⟩
  | claimed w off generation i k probes inc hi hclaim =>
      cases Pc.source_scans hsource
      exact ⟨rfl, fun _ => Or.inl rfl⟩
  | unclaimed w off generation i k probes inc hi hclaim =>
      cases w with
      | publish source' => exact ⟨hsource, fun _ => Or.inl rfl⟩
      | reserve => cases hsource
  | prepareSkipped off =>
      cases Pc.source_scans hsource
      exact ⟨rfl, fun _ => Or.inr (Nat.zero_le _)⟩
  | _ => cases hsource

/-- A scan is started in an installed allocation only. -/
lemma Pc.Flows.inScan {s : Arena} {pc pc' : Pc} (h : Flows s pc pc') (hscan : pc'.inScan = true) :
    pc.inScan = true ∨ s.producer.resources ≠ none := by
  have installed : ∀ {g}, s.producer.resources = some g → s.producer.resources ≠ none :=
    fun hg h0 => by rw [h0] at hg; cases hg
  cases h with
  | publish source g hres hlen hmax => exact Or.inr (installed hres)
  | reserve g hres hcap hmax => exact Or.inr (installed hres)
  | reserved w off hflag => exact Or.inl rfl
  | unreserved w off hflag => exact Or.inl rfl
  | retained w off hzero hold => exact Or.inl rfl
  | stale w off hstale => exact Or.inl rfl
  | found w off generation => exact Or.inl rfl
  | claimed w off generation i k probes inc hi hclaim => exact Or.inl rfl
  | unclaimed w off generation i k probes inc hi hclaim => exact Or.inl rfl
  | prepareSkipped off => exact Or.inl rfl
  | _ => cases hscan

namespace Arena

variable {s a b : Arena} {g index : ℕ} {l : Label}

/-- **The slots of a CPU allocation have its payload capacity**, and a native frame is not
staged in one. -/
structure Sized (s : Arena) : Prop where
  installed : s.producer.pc.inScan = true → s.producer.resources ≠ none
  bytes : ∀ g index, (s.shared.maps g).layout.payloadCapacity ≠ 0 →
    (s.record g index).payload.length = (s.shared.maps g).layout.payloadCapacity
  native : s.producer.pc.source = some .native → ∀ g, s.producer.resources = some g →
    (s.shared.maps g).layout.payloadCapacity = 0
  room : s.producer.pc.inScan = true → ∀ source, s.producer.pc.source = some source →
    source.len ≤ s.layout.payloadCapacity

/-- The maps keep their layouts and the lengths of their slots. -/
lemma Sized.frame (h : Sized a)
    (hinstalled : b.producer.pc.inScan = true → b.producer.resources ≠ none)
    (hidle : b.producer.pc.source ≠ none →
      a.producer.pc.source = b.producer.pc.source ∧ b.producer.resources = a.producer.resources)
    (hscan : b.producer.pc.inScan = true → ∀ source, b.producer.pc.source = some source →
      a.producer.pc.inScan = true ∨ source.len ≤ a.layout.payloadCapacity)
    (hlayout : ∀ g, (b.shared.maps g).layout = (a.shared.maps g).layout)
    (hbytes : ∀ g index, (b.record g index).payload.length = (a.record g index).payload.length) :
    Sized b := by
  refine ⟨hinstalled, fun g index hcap => ?_, fun hnative g hg => ?_,
    fun hscan' source hsource => ?_⟩
  · rw [hlayout] at hcap ⊢
    rw [hbytes]
    exact h.bytes g index hcap
  · obtain ⟨hsame, hres⟩ := hidle (by rw [hnative]; rintro ⟨⟩)
    rw [hlayout]
    exact h.native (hsame.trans hnative) g (hres ▸ hg)
  · obtain ⟨hsame, hres⟩ := hidle (by rw [hsource]; rintro ⟨⟩)
    have hb : b.layout = a.layout := by
      rw [layout, layout, hlayout, current, current, hres]
    rw [hb]
    rcases hscan hscan' source hsource with h0 | h0
    · exact h.room h0 source (hsame.trans hsource)
    · exact h0

/-- A map is changed, but not its layout nor the lengths of its slots. -/
lemma onMap_sizes (a : Arena) (g : ℕ) {F : ResourceMap → ResourceMap}
    (hF : ∀ map, (F map).layout = map.layout ∧
      ∀ index, ((F map).records index).payload.length = (map.records index).payload.length) :
    (∀ g', ((a.onMap g F).shared.maps g').layout = (a.shared.maps g').layout) ∧
      ∀ g' index', ((a.onMap g F).record g' index').payload.length =
        (a.record g' index').payload.length := by
  refine ⟨onMap_layout a g F fun map => (hF map).1, fun g' index' => ?_⟩
  rw [record_onMap]
  split_ifs with h0
  · rw [(hF _).2, h0]
    rfl
  · rfl

/-- A record is changed, but not the length of its slot. -/
lemma modify_sizes (index : ℕ) {f : Record → Record}
    (hf : ∀ r, (f r).payload.length = r.payload.length) (map : ResourceMap) (index' : ℕ) :
    ((map.modify index f).records index').payload.length =
      (map.records index').payload.length := by
  simp only [ResourceMap.modify, Function.update_apply]
  split_ifs with h0
  · rw [hf, h0]
  · rfl

/-- The sizes after a store into one map. -/
def Resized (a b : Arena) : Prop :=
  (∀ g, (b.shared.maps g).layout = (a.shared.maps g).layout) ∧
    ∀ g index, (b.record g index).payload.length = (a.record g index).payload.length

lemma Resized.of_maps (h : b.shared.maps = a.shared.maps) : Resized a b :=
  ⟨fun g => by rw [h], fun g index => by rw [record, record, h]⟩

lemma Resized.of_onMap {F : ResourceMap → ResourceMap}
    (hb : b.shared.maps = (a.onMap g F).shared.maps)
    (hF : ∀ map, (F map).layout = map.layout ∧
      ∀ index, ((F map).records index).payload.length = (map.records index).payload.length) :
    Resized a b := by
  obtain ⟨hlayout, hlength⟩ := onMap_sizes a g hF
  exact ⟨fun g => by rw [hb, hlayout], fun g index => by rw [record, hb]; exact hlength g index⟩

lemma Resized.of_modify {f : Record → Record}
    (hb : b.shared.maps = (a.onMap g fun map => map.modify index f).shared.maps)
    (hf : ∀ r, (f r).payload.length = r.payload.length) : Resized a b :=
  .of_onMap hb fun map => ⟨rfl, modify_sizes index hf map⟩

/-- The holder of a reservation writes its slot. -/
lemma Resized.write {bytes : List UInt8}
    (hlen : bytes.length = ((a.shared.maps g).records index).payload.length) :
    Resized a (a.onMap g fun map => map.modify index fun r => { r with payload := bytes }) := by
  refine ⟨modify_layout a g index _, fun g' index' => ?_⟩
  rw [record_modify a g index _ _ (fun _ => rfl)]
  split_ifs with h0
  · rw [h0.1, h0.2]
    exact hlen
  · rfl

/-- A reservation is dropped. -/
lemma Resized.abandon (a : Arena) (g index : ℕ) : Resized a (a.onMap g fun map =>
    { map.modify index fun r => { r with reserved := false, reservation := .absent } with
      releasing := map.releasing + 1 }) :=
  .of_onMap rfl fun map => ⟨rfl, modify_sizes index
    (f := fun r => { r with reserved := false, reservation := .absent }) (fun _ => rfl) map⟩

/-- The producer is as it was. -/
lemma Sized.of_others (h : Sized a) (hp : b.producer = a.producer) (hsizes : Resized a b) :
    Sized b :=
  h.frame (by rw [hp]; exact h.installed) (fun _ => by rw [hp]; exact ⟨rfl, rfl⟩)
    (fun h0 _ _ => Or.inl (by rw [hp] at h0; exact h0)) hsizes.1 hsizes.2

/-- **A step of a running call, or of another party, keeps the sizes.** -/
lemma Sized.acts (h : Sized a) (hl : Ledger a) (hidle : a.producer.pc ≠ .idle)
    (hs : a.Acts b) : Sized b := by
  -- `publish` is over, or another call runs
  have quiet : b.producer.pc.source = none → b.producer.pc.inScan = false → Resized a b →
      Sized b := fun hnone hout hsizes =>
    h.frame (fun h0 => by rw [hout] at h0; cases h0) (fun h0 => absurd hnone h0)
      (fun _ _ h0 => by rw [hnone] at h0; cases h0) hsizes.1 hsizes.2
  -- `poll_cleanup` goes on
  have cleaning : ∀ c c' goal, a.producer.pc = .cleanup c goal →
      b.producer.pc = .cleanup c' goal → b.producer.resources = a.producer.resources →
      Resized a b → Sized b := fun c c' goal hpc hpc' hres hsizes => by
    refine h.frame (fun h0 => ?_) (fun _ => ⟨?_, hres⟩) (fun h0 => ?_) hsizes.1 hsizes.2
    · rw [hpc'] at h0
      cases h0
    · rw [hpc, hpc']
      cases goal <;> rfl
    · rw [hpc'] at h0
      cases h0
  cases hs with
  | incarnation i inc inc' hi ha => exact h.of_others rfl (.of_maps rfl)
  | write g index bytes hres hlen => exact h.of_others rfl (.write hlen)
  | abandon g index hres => exact h.of_others rfl (.abandon a g index)
  | releaseMap g hpos => exact h.of_others rfl (.of_onMap rfl fun map => ⟨rfl, fun _ => rfl⟩)
  | dropExport g hpos => exact h.of_others rfl (.of_onMap rfl fun map => ⟨rfl, fun _ => rfl⟩)
  | flow pc outcome released hflow =>
      refine h.frame (fun h0 => (hflow.inScan h0).elim h.installed id) (fun h0 => ?_)
        (fun h0 source hsource => ?_) (fun _ => rfl) fun _ _ => rfl
      · obtain ⟨source, hsource⟩ := Option.ne_none_iff_exists'.mp h0
        exact ⟨(hflow.source hidle hsource).1.trans hsource.symm, rfl⟩
      · exact (hflow.source hidle hsource).2 h0
  | commitCall g index descriptor hpc => exact absurd hpc hidle
  | offerCall i hpc => exact absurd hpc hidle
  | registerCall i hpc => exact absurd hpc hidle
  | observe i todo goal inc hpc hi ho => exact cleaning _ _ goal hpc rfl rfl (.of_maps rfl)
  | observed i todo goal released hpc => exact cleaning _ _ goal hpc rfl rfl (.of_maps rfl)
  | collect i todo goal hd =>
      obtain ⟨hi, hrem, c, hpc⟩ := hl.drained hd
      obtain ⟨book', -, -, -, -, heq⟩ := hl.collect_spec hi hrem todo goal
      rw [heq] at cleaning ⊢
      exact cleaning c _ goal hpc rfl rfl (.of_maps rfl)
  | remove i todo goal inc hpc hi ho => exact cleaning _ _ goal hpc rfl rfl (.of_maps rfl)
  | reclaim index goal r hpc hr hcount hnative =>
      obtain ⟨_, _, _, _, _, _, _, heq⟩ := hl.reclaim_spec (by rw [hpc]; rfl) hr goal
      rw [heq] at cleaning ⊢
      exact cleaning _ _ goal hpc rfl rfl (.of_maps rfl)
  | unready index goal r hpc hr =>
      exact cleaning _ _ goal hpc rfl rfl
        (.of_onMap (F := fun map => { map with ready := false }) rfl fun map => ⟨rfl, fun _ => rfl⟩)
  | ready index goal r hpc hr =>
      have hrepl : a.producer.pc.replacing = none := by rw [hpc]; rfl
      obtain ⟨_, _, _, _, _, _, _, heq⟩ := (hl.ready r.generation).reclaim_spec hrepl hr goal
      rw [heq] at cleaning ⊢
      exact cleaning _ _ goal hpc rfl rfl
        (.of_onMap (F := fun map => { map with ready := true }) rfl fun map => ⟨rfl, fun _ => rfl⟩)
  | attach e holding remote hpc =>
      obtain ⟨o, heq⟩ | ⟨book', o, -, -, -, -, heq⟩ | ⟨book', g, r, -, -, -, -, -, -, -, heq⟩ :=
        hl.attach_spec (by rw [hpc]; rfl) e holding remote
      · rw [heq] at quiet ⊢
        exact quiet rfl rfl (.of_maps rfl)
      · rw [heq] at quiet ⊢
        exact quiet rfl rfl (.of_maps rfl)
      · rw [heq] at quiet ⊢
        exact quiet rfl rfl (.of_maps rfl)
  | advance e hpc =>
      obtain ⟨o, heq⟩ | ⟨book', o, -, -, -, -, -, -, heq⟩ |
        ⟨book', layout, n, -, -, hlayout, -, -, -, -, heq⟩ := hl.advance_spec e
      · rw [heq] at quiet ⊢
        exact quiet rfl rfl (.of_maps rfl)
      · rw [heq] at quiet ⊢
        exact quiet rfl rfl (.of_maps rfl)
      · -- a fresh allocation has zeroed slots of its capacity
        rw [heq]
        refine ⟨by rintro ⟨⟩, fun g index hcap => ?_, by rintro ⟨⟩, by rintro ⟨⟩⟩
        by_cases hg : g = a.producer.admission.nextAllocation
        · subst hg
          have hmap : ∀ x : Arena, x.shared.maps = (a.onMap a.producer.admission.nextAllocation
              fun _ => ResourceMap.new layout).shared.maps →
              x.shared.maps a.producer.admission.nextAllocation = ResourceMap.new layout :=
            fun x hx => by rw [hx]; exact Function.update_self _ _ _
          rw [record, hmap _ rfl]
          exact List.length_replicate
        · have hmap : ∀ x : Arena, x.shared.maps = (a.onMap a.producer.admission.nextAllocation
              fun _ => ResourceMap.new layout).shared.maps →
              x.shared.maps g = a.shared.maps g :=
            fun x hx => by rw [hx]; exact Function.update_of_ne hg _ _
          rw [record, hmap _ rfl]
          rw [hmap _ rfl] at hcap
          exact h.bytes g index hcap
  | begin payloadCapacity externalBytes hpc =>
      obtain ⟨o, heq⟩ | ⟨layout, book', g, -, -, -, -, -, -, -, -, -, -, -, heq⟩ :=
        hl.begin_spec (by rw [hpc]; rfl) payloadCapacity externalBytes
      · rw [heq] at quiet ⊢
        exact quiet rfl rfl (.of_maps rfl)
      · rw [heq] at quiet ⊢
        exact quiet rfl rfl (.of_maps rfl)
  | close call i hpc =>
      obtain ⟨e, heq⟩ | ⟨book', -, -, -, -, heq⟩ := hl.close_spec i
      · rw [heq] at quiet ⊢
        exact quiet rfl rfl (.of_maps rfl)
      · rw [heq] at quiet ⊢
        exact quiet rfl rfl (.of_maps rfl)
  | retire w off generation hpc =>
      have hsizes : Resized a ((a.onMap a.current fun map => map.modify (a.scanIndex off) fun r =>
          { r with state := 2 * generation }).goto (if generation = 0 then .finds a off w
            else .scanClaims w off generation a.claimProbes)) :=
        .of_modify (f := fun r => { r with state := 2 * generation }) rfl fun _ => rfl
      have hsource : ∀ source, (if generation = 0 then Pc.finds a off w
          else .scanClaims w off generation a.claimProbes).source = some source →
            a.producer.pc.source = some source := by
        intro source h0
        rw [hpc]
        split_ifs at h0
        · rw [Pc.source_finds h0]
          rfl
        · cases w with
          | publish source' => exact h0
          | reserve => cases h0
      refine h.frame (fun _ => h.installed (by rw [hpc]; rfl)) (fun h0 => ?_)
        (fun _ _ _ => Or.inl (by rw [hpc]; rfl)) hsizes.1 hsizes.2
      obtain ⟨source, h1⟩ := Option.ne_none_iff_exists'.mp h0
      exact ⟨(hsource source h1).trans h1.symm, rfl⟩
  | reserve index hpc => exact quiet rfl rfl (.of_modify (f := fun r =>
      { r with reserved := true, reservation := .held }) rfl fun _ => rfl)
  | stage off descriptor bytes hostTimeNs hpc =>
      -- a native frame is staged where the allocation has no bytes
      obtain ⟨g, hg⟩ := Option.ne_none_iff_exists'.mp (h.installed (by rw [hpc]; rfl))
      have hcurrent : a.current = g := by rw [current, hg]; rfl
      have hnone : (a.shared.maps a.current).layout.payloadCapacity = 0 := by
        rw [hcurrent]
        exact h.native (by rw [hpc]; rfl) g hg
      refine ⟨by rintro ⟨⟩, fun g' index' hcap => ?_, by rintro ⟨⟩, by rintro ⟨⟩⟩
      have hlayout := modify_layout a a.current (a.scanIndex off)
        (fun r => { r with payload := bytes }) g'
      have hrec := record_modify a a.current (a.scanIndex off)
        (fun r => { r with payload := bytes }) _ (fun _ => rfl) g' index'
      have hcap' : (a.shared.maps g').layout.payloadCapacity ≠ 0 := fun h0 =>
        hcap ((congrArg ResourceLayout.payloadCapacity hlayout).trans h0)
      rw [if_neg (fun h0 => hcap' (by rw [h0.1]; exact hnone))] at hrec
      exact (congrArg (fun r : Record => r.payload.length) hrec).trans
        ((h.bytes g' index' hcap').trans
          (congrArg ResourceLayout.payloadCapacity hlayout).symm)
  | copy index descriptor bytes hostTimeNs hpc =>
      -- the bytes fit into the slot
      have hroom : bytes.length ≤ (a.shared.maps a.current).layout.payloadCapacity :=
        h.room (by rw [hpc]; rfl) (.cpu descriptor bytes) (by rw [hpc]; rfl)
      refine ⟨by rintro ⟨⟩, fun g' index' hcap => ?_, by rintro ⟨⟩, by rintro ⟨⟩⟩
      have hlayout := modify_layout a a.current index
        (fun r => { r with payload := bytes ++ r.payload.drop bytes.length }) g'
      have hrec := record_modify a a.current index
        (fun r => { r with payload := bytes ++ r.payload.drop bytes.length }) _ (fun _ => rfl)
          g' index'
      have hcap' : (a.shared.maps g').layout.payloadCapacity ≠ 0 := fun h0 =>
        hcap ((congrArg ResourceLayout.payloadCapacity hlayout).trans h0)
      have hlength : ((if g' = a.current ∧ index' = index then
          { a.record a.current index with
            payload := bytes ++ (a.record a.current index).payload.drop bytes.length }
          else a.record g' index' : Record)).payload.length = (a.record g' index').payload.length := by
        split_ifs with h0
        · have hlen := h.bytes g' index' hcap'
          rw [h0.1, h0.2] at hlen ⊢
          simp only [List.length_append, List.length_drop]
          omega
        · rfl
      exact (congrArg (fun r : Record => r.payload.length) hrec).trans
        (hlength.trans ((h.bytes g' index' hcap').trans
          (congrArg ResourceLayout.payloadCapacity hlayout).symm))
  | describe p after hpc => exact quiet rfl rfl (.of_modify (f := fun r =>
      { r with descriptor := p.descriptor }) rfl fun _ => rfl)
  | store p after hpc => exact quiet rfl rfl (.of_modify (f := fun r =>
      { r with state := 2 * p.descriptor.cursor + 1 }) rfl fun _ => rfl)
  | release g index outcome hpc => exact quiet rfl rfl (.of_modify (f := fun r =>
      { r with reserved := false, reservation := .absent }) rfl fun _ => rfl)
  | unpublish layout index state hpc => exact quiet rfl rfl (.of_modify (f := fun r =>
      { r with state := 2 * (state / 2) }) rfl fun _ => rfl)
  | exported g hpc hterm hres => exact quiet rfl rfl (.of_onMap (F := fun map =>
      { map with exports := map.exports + 1 }) rfl fun map => ⟨rfl, fun _ => rfl⟩)
  | ring p after hpc => exact quiet rfl rfl (.of_maps rfl)
  | latest p after hpc => exact quiet rfl rfl (.of_maps rfl)
  | unconfigure layout hpc => exact quiet rfl rfl (.of_maps rfl)
  | firstCursor layout hpc => exact quiet rfl rfl (.of_maps rfl)
  | configure g hpc => exact quiet rfl rfl (.of_maps rfl)
  | epoch value after hpc => exact quiet rfl rfl (.of_maps rfl)
  | terminate after hpc => exact quiet rfl rfl (.of_maps rfl)
  | page call i todo after hpc => exact quiet rfl rfl (.of_maps rfl)
  | register i inc hpc => exact quiet rfl rfl (.of_maps rfl)
  | retry i inc outcome hpc => exact quiet rfl rfl (.of_maps rfl)
  | dropObserver i todo inc hpc => exact quiet rfl rfl (.of_maps rfl)

/-- **A call keeps the sizes**: a native frame is refused where there are bytes. -/
lemma Sized.call (h : Sized a) {op : Op} (hs : a.begin op = some b) : Sized b := by
  -- the call does not publish a native frame, and stores at most a flag
  have quiet : ∀ b : Arena, b.producer.pc.source ≠ some .native → b.producer.pc.inScan = false →
      Resized a b → Sized b := by
    intro b hnot hout hsizes
    refine ⟨fun h0 => ?_, fun g index hcap => ?_, fun h0 => absurd h0 hnot, fun h0 => ?_⟩
    · rw [hout] at h0
      cases h0
    swap
    · rw [hout] at h0
      cases h0
    rw [hsizes.1] at hcap ⊢
    rw [hsizes.2]
    exact h.bytes g index hcap
  have fails : ∀ e, Sized (a.fail e) := fun e => quiet _ (by rintro ⟨⟩) rfl (.of_maps rfl)
  cases op with
  | publish source =>
      cases source with
      | cpu descriptor bytes =>
          simp only [begin, Option.some.injEq] at hs
          subst hs
          exact quiet _ (by rintro ⟨⟩) rfl (.of_maps rfl)
      | native =>
          simp only [begin, Option.some.injEq] at hs
          split_ifs at hs with hcap <;> subst hs
          · exact fails _
          · refine ⟨by rintro ⟨⟩, h.bytes, fun _ g hg => ?_, by rintro ⟨⟩⟩
            by_contra hne
            refine hcap ⟨?_, ?_⟩
            · have hg' : a.producer.resources = some g := hg
              rw [hg']
              rfl
            · have hg' : a.producer.resources = some g := hg
              rw [layout, current, hg']
              exact hne
  | reserve =>
      simp only [begin, Option.some.injEq] at hs
      split_ifs at hs <;> subst hs
      · exact fails _
      · exact quiet _ (by rintro ⟨⟩) rfl (.of_maps rfl)
  | commit g index descriptor =>
      simp only [begin] at hs
      split_ifs at hs
      cases hs
      exact quiet _ (by rintro ⟨⟩) rfl
        (.of_modify (f := fun r => { r with reservation := .committing }) rfl fun _ => rfl)
  | close i =>
      simp only [begin, Option.some.injEq] at hs
      split_ifs at hs <;> subst hs
      · exact quiet _ (by rintro ⟨⟩) rfl (.of_maps rfl)
      · exact fails _
  | reconfigureCpu payloadCapacity =>
      simp only [begin, Option.some.injEq] at hs
      split_ifs at hs <;> subst hs
      · exact fails _
      · exact quiet _ (by rintro ⟨⟩) rfl (.of_maps rfl)
  | reconfigureNative externalBytes =>
      simp only [begin, Option.some.injEq] at hs
      split_ifs at hs <;> subst hs
      · exact quiet _ (by rintro ⟨⟩) rfl (.of_maps rfl)
      · exact fails _
  | configurationOffer i =>
      simp only [begin, Option.some.injEq] at hs
      split_ifs at hs <;> subst hs
      · exact quiet _ (by rintro ⟨⟩) rfl (.of_maps rfl)
      · exact fails _
  | registerReleaseTimeline i =>
      simp only [begin, Option.some.injEq] at hs
      split_ifs at hs <;> subst hs
      · exact quiet _ (by rintro ⟨⟩) rfl (.of_maps rfl)
      · exact fails _
  | retryCleanup i =>
      simp only [begin, Option.some.injEq] at hs
      split_ifs at hs <;> subst hs
      · exact quiet _ (by rintro ⟨⟩) rfl (.of_maps rfl)
      · exact fails _
  | exportWriter =>
      simp only [begin, Option.some.injEq] at hs
      split_ifs at hs <;> subst hs
      · exact fails _
      · exact quiet _ (by rintro ⟨⟩) rfl (.of_maps rfl)
  | _ =>
      simp only [begin, Option.some.injEq] at hs
      subst hs
      exact quiet _ (by rintro ⟨⟩) rfl (.of_maps rfl)

/-- The others keep the sizes whether or not a call runs. -/
lemma Sized.other (h : Sized a) (hl : ∀ e, l ≠ .producer e) (hc : ∀ op, l ≠ .call op)
    (hs : a.step l = some b) : Sized b := by
  cases l with
  | call op => exact absurd rfl (hc op)
  | producer e => exact absurd rfl (hl e)
  | incarnation i l =>
      simp only [Arena.step, Option.bind_eq_bind, Option.bind_eq_some_iff] at hs
      obtain ⟨inc, -, inc', -, heq⟩ := hs
      cases heq
      exact h.of_others rfl (.of_maps rfl)
  | write g index bytes =>
      simp only [Arena.step] at hs
      split_ifs at hs with hres
      cases hs
      exact h.of_others rfl (.write hres.2)
  | abandon g index =>
      simp only [Arena.step] at hs
      split_ifs at hs
      cases hs
      exact h.of_others rfl (.abandon a g index)
  | releaseMap g =>
      simp only [Arena.step] at hs
      split_ifs at hs
      cases hs
      exact h.of_others rfl (.of_onMap rfl fun map => ⟨rfl, fun _ => rfl⟩)
  | dropExport g =>
      simp only [Arena.step] at hs
      split_ifs at hs
      cases hs
      exact h.of_others rfl (.of_onMap rfl fun map => ⟨rfl, fun _ => rfl⟩)

/-- **The slots of every reachable arena have their sizes.** -/
lemma Reachable.sized (h : Reachable s) : Sized s := by
  obtain ⟨page, config, externalBytes, native, s₀, h₀, hrun⟩ := h
  have h₁ : Reachable s₀ := ⟨page, config, externalBytes, native, s₀, h₀, .refl⟩
  refine hrun.invariant_with (P := Sized) (Q := Reachable) (fun a ha => h₁.run ha) ?_
    fun a l b ha hp _ hs => ?_
  · rw [create] at h₀
    obtain ⟨x, -, h₀⟩ := of_bind_ok h₀
    cases h₀
    exact ⟨by rintro ⟨⟩, fun g index _ => List.length_replicate, by rintro ⟨⟩, by rintro ⟨⟩⟩
  · cases l with
    | call op =>
        rw [Arena.step] at hs
        split_ifs at hs
        exact hp.call hs
    | producer e =>
        have hidle : a.producer.pc ≠ .idle := fun h0 => by
          simp only [Arena.step, producerStep, h0] at hs
          cases hs
        exact hp.acts ha.ledger hidle (acts_of_step hs)
    | _ => exact hp.other (by rintro _ ⟨⟩) (by rintro _ ⟨⟩) hs

end Arena

end Jackstay.Acquisition
