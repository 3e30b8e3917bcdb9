import Jackstay.Affordances.Snapshot
import Jackstay.Library.Outcome

/-!
The snapshots that `parse_snapshot` returns: it does not know its own results from
what it was given.

* `Snapshot.Normal`: the numbers are finite and in their ranges, and statuses,
  cursors and capabilities are among those that are known;
* `normal_of_parse`: what `parseSnapshot` returns is normal, whatever the body was;
* `parse_of_normal`: the body of a normal snapshot is read back as it was written.
-/

namespace Jackstay.Affordances

open Input (F64)

/-! ### Normal snapshots -/

/-- A finite number that is not negative. -/
def IsLength (x : F64) : Prop := x.isFinite = true ∧ x.lt .zero = false

/-- A finite number that is positive. -/
def IsPositive (x : F64) : Prop := x.isFinite = true ∧ x.le .zero = false

/-- Every capability names a verb. -/
def Known (d : Domain) (capabilities : OrderedMap String Bool) : Prop :=
  ∀ e ∈ capabilities.entries, knownVerb d e.1 = true

/-- A size that is there is positive. -/
def Size.Normal (s : Size) : Prop := IsPositive s.width ∧ IsPositive s.height

structure Media.Normal (m : Media) : Prop where
  position : ∀ x, m.position = some x → IsLength x
  duration : ∀ x, m.duration = some x → IsLength x
  order : ∀ p d, m.position = some p → m.duration = some d → d.lt p = false
  rate : m.rate.isFinite = true
  status : statuses.contains m.status = true
  capabilities : Known .media m.capabilities

structure Axis.Normal (a : Axis) : Prop where
  contentLength : IsLength a.contentLength
  viewportLength : IsLength a.viewportLength
  position : IsLength a.position
  within : ((a.contentLength.sub a.viewportLength).max .zero).lt a.position = false
  still : a.scrollable = false → a.position.eq .zero = true

/-- What `parse_snapshot` returns. -/
def Snapshot.Normal : Snapshot → Prop
  | media m => m.Normal
  | navigation n => Known .navigation n.capabilities
  | cursor shape => cursors.contains shape = true
  | scroll s => s.x.Normal ∧ s.y.Normal ∧ Known .scroll s.capabilities
  | window w => ∀ s, w.requestedSize = some s → s.Normal
  | presentation p => (∀ s, p.preferredSize = some s → s.Normal) ∧ IsPositive p.scale
  | withdraw _ => True

/-! ### The checks -/

section

variable {α β : Type} {v b : Value}

lemma bind_ok (a : α) (f : α → Except Error β) : ((.ok a : Except Error α) >>= f) = f a := rfl

lemma refuse_of_not {c : Prop} [Decidable c] (h : ¬ c) : refuse c = .ok () := if_neg h

lemma not_of_refuse {c : Prop} [Decidable c] {u : Unit} (h : refuse c = .ok u) : ¬ c := by
  intro hc
  rw [refuse, if_pos hc] at h
  cases h

lemma number_ok {x : F64} (h : number v = .ok x) : v.asF64 = some x ∧ x.isFinite = true := by
  rw [number] at h
  cases hx : v.asF64.filter F64.isFinite with
  | none =>
      rw [hx] at h
      cases h
  | some y =>
      rw [hx] at h
      obtain rfl := Except.ok.inj h
      exact Option.filter_eq_some_iff.mp hx

lemma number_ofF64 {x : F64} (h : x.isFinite = true) : number (.ofF64 x) = .ok x := by
  rw [number, Value.asF64_ofF64 h, Option.filter_some, if_pos h]

lemma readF64_ofF64 {x : F64} (h : x.isFinite = true) : (Value.ofF64 x).readF64 = .ok x := by
  rw [Value.readF64, Value.asF64_ofF64 h]

lemma readF64_ok {x : F64} (h : v.readF64 = .ok x) : v.asF64 = some x := by
  rw [Value.readF64] at h
  cases hx : v.asF64 with
  | none =>
      rw [hx] at h
      cases h
  | some y =>
      rw [hx] at h
      rw [Except.ok.inj h]

/-- The number that was checked is the one that is read. -/
lemma number_of_read {x y : F64} (h : number v = .ok x) (hread : v.readF64 = .ok y) :
    x = y ∧ y.isFinite = true := by
  obtain ⟨hx, hfinite⟩ := number_ok h
  have heq : x = y := Option.some.inj (hx.symm.trans (readF64_ok hread))
  exact ⟨heq, heq ▸ hfinite⟩

lemma nonnegative_ofF64 {x : F64} (h : IsLength x) : nonnegative (.ofF64 x) = .ok () := by
  rw [nonnegative, number_ofF64 h.1, bind_ok, refuse_of_not (by rw [h.2]; decide)]

lemma isLength_of_read {x : F64} {u : Unit} (h : nonnegative v = .ok u)
    (hread : v.readF64 = .ok x) : IsLength x := by
  obtain ⟨y, hy, hrefuse⟩ := of_bind_ok h
  obtain ⟨rfl, hfinite⟩ := number_of_read hy hread
  exact ⟨hfinite, Bool.eq_false_iff.mpr (not_of_refuse hrefuse)⟩

lemma text_ok {t : String} (h : text v = .ok t) : v.asStr = some t := by
  rw [text] at h
  cases ht : v.asStr with
  | none =>
      rw [ht] at h
      cases h
  | some t' =>
      rw [ht] at h
      rw [Except.ok.inj h]

lemma readString_ok {t : String} (h : v.readString = .ok t) : v.asStr = some t := by
  rw [Value.readString] at h
  cases ht : v.asStr with
  | none =>
      rw [ht] at h
      cases h
  | some t' =>
      rw [ht] at h
      rw [Except.ok.inj h]

/-! ### Options -/

lemma readOption_ofOption {f : α → Value} {read : Value → Except Error α} {o : Option α}
    (h : ∀ a, o = some a → (f a).isNull = false ∧ read (f a) = .ok a) :
    (Value.ofOption f o).readOption read = .ok o := by
  cases o with
  | none => rfl
  | some a =>
      obtain ⟨hnull, hread⟩ := h a rfl
      rw [Value.ofOption, Value.readOption, hnull, if_neg (by decide), hread]
      rfl

/-- An option that is there was read from something that is not null. -/
lemma readOption_some {read : Value → Except Error α} {a : α}
    (h : v.readOption read = .ok (some a)) : v.isNull = false ∧ read v = .ok a := by
  rw [Value.readOption] at h
  by_cases hnull : v.isNull = true
  · rw [if_pos hnull] at h
    cases h
  · rw [if_neg hnull] at h
    cases hread : read v with
    | error e =>
        rw [hread] at h
        cases h
    | ok a' =>
        rw [hread] at h
        obtain rfl := Option.some.inj (Except.ok.inj h)
        exact ⟨Bool.eq_false_iff.mpr hnull, rfl⟩

lemma readOption_string (o : Option String) :
    (Value.ofOption .string o).readOption Value.readString = .ok o :=
  readOption_ofOption fun _ _ => ⟨rfl, rfl⟩

/-- A member that is read is there. -/
lemma get_of_index {name : String} (h : b.index name ≠ .null) : (b.get name).isSome := by
  rw [Value.index] at h
  cases hget : b.get name with
  | none =>
      rw [hget] at h
      exact absurd rfl h
  | some v => rfl

/-! ### Capabilities -/

/-- What `retainKnown` leaves: the rest of the body, and capabilities that name verbs. -/
lemma retainKnown_ok {d : Domain} {b' : Value} (h : retainKnown d b = .ok b')
    (hd : d.hasVerbs = true) :
    (∀ name, name ≠ "capabilities" → b'.index name = b.index name) ∧
      ∀ flags, (b'.index "capabilities").readFlags = .ok flags → Known d flags := by
  rw [retainKnown, if_pos hd] at h
  cases hmembers : (b.index "capabilities").asObject with
  | none =>
      rw [hmembers] at h
      cases h
  | some members =>
      rw [hmembers] at h
      obtain rfl := Except.ok.inj h
      have hthere : (b.get "capabilities").isSome := by
        refine get_of_index fun hnull => ?_
        rw [hnull] at hmembers
        cases hmembers
      refine ⟨fun name hne => b.index_set_of_ne _ hne, fun flags hflags e he => ?_⟩
      rw [Value.index_set_self _ hthere, Value.readFlags] at hflags
      cases hread : Value.toFlags (members.filter fun m => knownVerb d m.1) with
      | none =>
          simp only [Value.asObject, Option.bind_some, hread] at hflags
          cases hflags
      | some flags' =>
          simp only [Value.asObject, Option.bind_some, hread] at hflags
          obtain rfl := Except.ok.inj hflags
          exact (List.mem_filter.mp (Value.mem_of_toFlags hread he)).2

/-- Known capabilities all stay. -/
lemma retainKnown_of_known {d : Domain} {flags : OrderedMap String Bool} (h : Known d flags)
    (hindex : b.index "capabilities" = .object (Value.ofFlags flags))
    (hset : b.set "capabilities" (.object (Value.ofFlags flags)) = b) : retainKnown d b = .ok b := by
  rw [retainKnown]
  split_ifs
  · have hall : (Value.ofFlags flags).filter (fun m => knownVerb d m.1) = Value.ofFlags flags := by
      refine List.filter_eq_self.mpr fun m hm => ?_
      obtain ⟨e, he, rfl⟩ := List.mem_map.mp hm
      exact h e he
    simp only [hindex, Value.asObject, hall, hset]
  · rfl

lemma readFlags_ofFlags (flags : OrderedMap String Bool) :
    (Value.object (Value.ofFlags flags)).readFlags = .ok flags := by
  rw [Value.readFlags]
  simp only [Value.asObject, Option.bind_some, Value.toFlags_ofFlags]

/-! ### Sizes -/

lemma readSize_ofSize {s : Size} (h : s.Normal) : (Value.ofSize s).readSize = .ok s := by
  have hwidth : (Value.ofSize s).index "width" = .ofF64 s.width := rfl
  have hheight : (Value.ofSize s).index "height" = .ofF64 s.height := rfl
  rw [Value.readSize, hwidth, hheight, readF64_ofF64 h.1.1, readF64_ofF64 h.2.1]
  rfl

lemma size_ofOption {o : Option Size} (h : ∀ s, o = some s → s.Normal) :
    size (.ofOption .ofSize o) = .ok () := by
  cases o with
  | none => rfl
  | some s =>
      obtain ⟨hw, hh⟩ := h s rfl
      have hwidth : (Value.ofSize s).index "width" = .ofF64 s.width := rfl
      have hheight : (Value.ofSize s).index "height" = .ofF64 s.height := rfl
      have hnull : ¬ (Value.ofSize s).isNull = true := Bool.false_ne_true
      rw [Value.ofOption, size, if_neg hnull, hwidth, hheight, number_ofF64 hw.1, bind_ok,
        refuse_of_not (by rw [hw.2]; decide), bind_ok, number_ofF64 hh.1, bind_ok,
        refuse_of_not (by rw [hh.2]; decide)]

/-- A size that has been checked and read is normal. -/
lemma normal_of_size {u : Unit} (h : size v = .ok u) {s : Size}
    (hread : v.readOption Value.readSize = .ok (some s)) : s.Normal := by
  obtain ⟨hnull, hsize⟩ := readOption_some hread
  rw [size, hnull, if_neg (by decide)] at h
  obtain ⟨width, hwidth, h⟩ := of_bind_ok h
  obtain ⟨_, hw, h⟩ := of_bind_ok h
  obtain ⟨height, hheight, hh⟩ := of_bind_ok h
  rw [Value.readSize] at hsize
  obtain ⟨width', hwidth', hsize⟩ := of_bind_ok hsize
  obtain ⟨height', hheight', hsize⟩ := of_bind_ok hsize
  obtain rfl := Except.ok.inj hsize
  obtain ⟨rfl, hwf⟩ := number_of_read hwidth hwidth'
  obtain ⟨rfl, hhf⟩ := number_of_read hheight hheight'
  exact ⟨⟨hwf, Bool.eq_false_iff.mpr (not_of_refuse hw)⟩,
    hhf, Bool.eq_false_iff.mpr (not_of_refuse hh)⟩

/-! ### Axes -/

lemma readAxis_ofAxis {a : Axis} (h : a.Normal) : (Value.ofAxis a).readAxis = .ok a := by
  have hscrollable : (Value.ofAxis a).index "scrollable" = .bool a.scrollable := rfl
  have hcontent : (Value.ofAxis a).index "content_length" = .ofF64 a.contentLength := rfl
  have hviewport : (Value.ofAxis a).index "viewport_length" = .ofF64 a.viewportLength := rfl
  have hposition : (Value.ofAxis a).index "position" = .ofF64 a.position := rfl
  rw [Value.readAxis, hscrollable, hcontent, hviewport, hposition,
    readF64_ofF64 h.contentLength.1, readF64_ofF64 h.viewportLength.1, readF64_ofF64 h.position.1]
  rfl

lemma checkAxis_ofAxis {a : Axis} (h : a.Normal) : checkAxis (.ofAxis a) = .ok () := by
  have hscrollable : (Value.ofAxis a).index "scrollable" = .bool a.scrollable := rfl
  have hcontent : (Value.ofAxis a).index "content_length" = .ofF64 a.contentLength := rfl
  have hviewport : (Value.ofAxis a).index "viewport_length" = .ofF64 a.viewportLength := rfl
  have hposition : (Value.ofAxis a).index "position" = .ofF64 a.position := rfl
  have hrefuse : ¬ (((a.contentLength.sub a.viewportLength).max .zero).lt a.position = true ∨
      (Value.bool a.scrollable).asBool = some false ∧ a.position.eq .zero = false) := by
    rintro (hwithin | ⟨hscroll, hmoved⟩)
    · rw [h.within] at hwithin
      cases hwithin
    · rw [h.still (Option.some.inj hscroll)] at hmoved
      cases hmoved
  rw [checkAxis, hcontent, hviewport, hposition, hscrollable, nonnegative_ofF64 h.contentLength,
    bind_ok, nonnegative_ofF64 h.viewportLength, bind_ok, nonnegative_ofF64 h.position, bind_ok,
    number_ofF64 h.position.1, bind_ok, number_ofF64 h.contentLength.1, bind_ok,
    number_ofF64 h.viewportLength.1, bind_ok, refuse_of_not hrefuse]

/-- An axis that has been checked and read is normal. -/
lemma normal_of_checkAxis {u : Unit} (h : checkAxis v = .ok u) {a : Axis}
    (hread : v.readAxis = .ok a) : a.Normal := by
  rw [checkAxis] at h
  obtain ⟨_, hcontent, h⟩ := of_bind_ok h
  obtain ⟨_, hviewport, h⟩ := of_bind_ok h
  obtain ⟨_, hposition, h⟩ := of_bind_ok h
  obtain ⟨p, hp, h⟩ := of_bind_ok h
  obtain ⟨c, hc, h⟩ := of_bind_ok h
  obtain ⟨w, hw, hrefuse⟩ := of_bind_ok h
  rw [Value.readAxis] at hread
  obtain ⟨scrollable, hscrollable, hread⟩ := of_bind_ok hread
  obtain ⟨contentLength, hc', hread⟩ := of_bind_ok hread
  obtain ⟨viewportLength, hw', hread⟩ := of_bind_ok hread
  obtain ⟨position, hp', hread⟩ := of_bind_ok hread
  obtain rfl := Except.ok.inj hread
  obtain ⟨rfl, -⟩ := number_of_read hp hp'
  obtain ⟨rfl, -⟩ := number_of_read hc hc'
  obtain ⟨rfl, -⟩ := number_of_read hw hw'
  obtain ⟨hwithin, hstill⟩ := not_or.mp (not_of_refuse hrefuse)
  refine ⟨isLength_of_read hcontent hc', isLength_of_read hviewport hw',
    isLength_of_read hposition hp', Bool.eq_false_iff.mpr hwithin, fun hfixed => ?_⟩
  have hbool : (v.index "scrollable").asBool = some false := by
    rw [Value.readBool] at hscrollable
    cases hb : (v.index "scrollable").asBool with
    | none =>
        rw [hb] at hscrollable
        cases hscrollable
    | some b =>
        rw [hb] at hscrollable
        rw [Except.ok.inj hscrollable]
        exact congrArg some hfixed
  have hnot := not_and.mp hstill hbool
  simpa using hnot

/-! ### Media -/

lemma checkTime_ofOption {o : Option F64} (h : ∀ x, o = some x → IsLength x) :
    checkTime (.ofOption .ofF64 o) = .ok () := by
  cases o with
  | none => rfl
  | some x =>
      have hx := h x rfl
      rw [Value.ofOption, checkTime, Value.isNull_ofF64 hx.1, if_neg (by decide),
        nonnegative_ofF64 hx]

lemma checkOrder_ofOption {p d : Option F64} (hp : ∀ x, p = some x → IsLength x)
    (hd : ∀ x, d = some x → IsLength x)
    (h : ∀ x y, p = some x → d = some y → y.lt x = false) :
    checkOrder (.ofOption .ofF64 p) (.ofOption .ofF64 d) = .ok () := by
  cases p with
  | none => rfl
  | some x =>
      cases d with
      | none =>
          rw [checkOrder, if_pos]
          rw [Bool.or_eq_true]
          exact .inr rfl
      | some y =>
          have hx := hp x rfl
          have hy := hd y rfl
          rw [Value.ofOption, Value.ofOption, checkOrder, Value.isNull_ofF64 hx.1,
            Value.isNull_ofF64 hy.1, if_neg (by decide), number_ofF64 hx.1, bind_ok,
            number_ofF64 hy.1, bind_ok, refuse_of_not (by rw [h x y rfl rfl]; decide)]

lemma readTime_ofOption {o : Option F64} (h : ∀ x, o = some x → IsLength x) :
    (Value.ofOption .ofF64 o).readOption Value.readF64 = .ok o :=
  readOption_ofOption fun x hx => ⟨Value.isNull_ofF64 (h x hx).1, readF64_ofF64 (h x hx).1⟩

lemma readArtwork_ofOption (o : Option Artwork) :
    (Value.ofOption .ofArtwork o).readOption Value.readArtwork = .ok o := by
  refine readOption_ofOption fun artwork _ => ?_
  cases artwork with
  | url url => exact ⟨rfl, rfl⟩
  | icon name => exact ⟨rfl, rfl⟩

lemma isLength_of_time {u : Unit} (h : checkTime v = .ok u) {x : F64}
    (hread : v.readOption Value.readF64 = .ok (some x)) : IsLength x := by
  obtain ⟨hnull, hx⟩ := readOption_some hread
  rw [checkTime, hnull, if_neg (by decide)] at h
  exact isLength_of_read h hx

lemma not_lt_of_checkOrder {p d : Value} {u : Unit} (h : checkOrder p d = .ok u) {x y : F64}
    (hp : p.readOption Value.readF64 = .ok (some x))
    (hd : d.readOption Value.readF64 = .ok (some y)) : y.lt x = false := by
  obtain ⟨hpnull, hx⟩ := readOption_some hp
  obtain ⟨hdnull, hy⟩ := readOption_some hd
  rw [checkOrder, hpnull, hdnull, if_neg (by decide)] at h
  obtain ⟨x', hx', h⟩ := of_bind_ok h
  obtain ⟨y', hy', hrefuse⟩ := of_bind_ok h
  obtain ⟨rfl, -⟩ := number_of_read hx' hx
  obtain ⟨rfl, -⟩ := number_of_read hy' hy
  exact Bool.eq_false_iff.mpr (not_of_refuse hrefuse)

/-- The status becomes one that is known, and the rest of the body stays. -/
lemma normalStatus_ok {b' : Value} (h : normalStatus b = .ok b') :
    (∀ name, name ≠ "status" → b'.index name = b.index name) ∧
      ∀ t, (b'.index "status").readString = .ok t → statuses.contains t = true := by
  rw [normalStatus] at h
  obtain ⟨status, hstatus, h⟩ := of_bind_ok h
  obtain rfl := Except.ok.inj h
  have hstr := text_ok hstatus
  split_ifs with hknown
  · refine ⟨fun _ _ => rfl, fun t ht => ?_⟩
    have heq : t = status := Option.some.inj ((readString_ok ht).symm.trans hstr)
    rw [heq]
    exact hknown
  · have hthere : (b.get "status").isSome := by
      refine get_of_index fun hnull => ?_
      rw [hnull] at hstr
      cases hstr
    refine ⟨fun name hne => b.index_set_of_ne _ hne, fun t ht => ?_⟩
    rw [Value.index_set_self _ hthere] at ht
    obtain rfl := Except.ok.inj ht
    decide

lemma normalArtwork_ok {b' : Value} (h : normalArtwork b = .ok b') (name : String)
    (hne : name ≠ "artwork") : b'.index name = b.index name := by
  rw [normalArtwork] at h
  split_ifs at h with hnull
  · rw [Except.ok.inj h]
  · obtain ⟨kind, -, h⟩ := of_bind_ok h
    obtain rfl := Except.ok.inj h
    split_ifs
    · rfl
    · exact b.index_set_of_ne _ hne

lemma normalStatus_of_known {t : String} (hindex : b.index "status" = .string t)
    (h : statuses.contains t = true) : normalStatus b = .ok b := by
  rw [normalStatus, hindex]
  show Except.ok (if statuses.contains t = true then b else b.set "status" (.string "unknown")) = _
  rw [if_pos h]

lemma normalArtwork_ofOption {o : Option Artwork}
    (hindex : b.index "artwork" = .ofOption .ofArtwork o) : normalArtwork b = .ok b := by
  rw [normalArtwork, hindex]
  cases o with
  | none => rfl
  | some artwork =>
      cases artwork with
      | url url => rfl
      | icon name => rfl

/-- Media that has been checked and read is normal. -/
lemma normal_of_media {b₀ : Value} (hcaps : retainKnown .media b₀ = .ok b) {v : Snapshot}
    (h : parseBody .media b = .ok v) :
    v.Normal ∧ v.domain = .media ∧ ∀ d, v ≠ .withdraw d := by
  rw [parseBody] at h
  obtain ⟨_, hposition, h⟩ := of_bind_ok h
  obtain ⟨_, hduration, h⟩ := of_bind_ok h
  obtain ⟨rate, hrate, h⟩ := of_bind_ok h
  obtain ⟨_, horder, h⟩ := of_bind_ok h
  obtain ⟨b₁, hstatus, h⟩ := of_bind_ok h
  obtain ⟨b₂, hartwork, h⟩ := of_bind_ok h
  obtain ⟨m, hm, h⟩ := of_bind_ok h
  obtain rfl := Except.ok.inj h
  obtain ⟨hsame, hknown⟩ := normalStatus_ok hstatus
  have hsame₂ := normalArtwork_ok hartwork
  rw [Value.readMedia, hsame₂ "status" (by decide), hsame₂ "position" (by decide),
    hsame₂ "rate" (by decide), hsame₂ "duration" (by decide), hsame₂ "capabilities" (by decide),
    hsame "position" (by decide), hsame "rate" (by decide), hsame "duration" (by decide),
    hsame "capabilities" (by decide)] at hm
  obtain ⟨status, hstatus', hm⟩ := of_bind_ok hm
  obtain ⟨position, hposition', hm⟩ := of_bind_ok hm
  obtain ⟨rate', hrate', hm⟩ := of_bind_ok hm
  obtain ⟨duration, hduration', hm⟩ := of_bind_ok hm
  obtain ⟨title, -, hm⟩ := of_bind_ok hm
  obtain ⟨artwork, -, hm⟩ := of_bind_ok hm
  obtain ⟨capabilities, hcapabilities, hm⟩ := of_bind_ok hm
  obtain rfl := Except.ok.inj hm
  refine ⟨⟨?_, ?_, ?_, (number_of_read hrate hrate').2, hknown status hstatus',
    (retainKnown_ok hcaps rfl).2 _ hcapabilities⟩, rfl, nofun⟩
  · rintro x rfl
    exact isLength_of_time hposition hposition'
  · rintro x rfl
    exact isLength_of_time hduration hduration'
  · rintro p d rfl rfl
    exact not_lt_of_checkOrder horder hposition' hduration'

end

/-! ### Main results -/

/-- Every arm returns a normal snapshot of its domain. -/
lemma normal_of_parseBody {d : Domain} {b₀ b : Value} (hcaps : retainKnown d b₀ = .ok b)
    {v : Snapshot} (h : parseBody d b = .ok v) :
    v.Normal ∧ v.domain = d ∧ ∀ d', v ≠ .withdraw d' := by
  cases d with
  | media => exact normal_of_media hcaps h
  | navigation =>
      obtain ⟨n, hn, h⟩ := of_bind_ok h
      obtain rfl := Except.ok.inj h
      rw [Value.readNavigation] at hn
      obtain ⟨url, -, hn⟩ := of_bind_ok hn
      obtain ⟨title, -, hn⟩ := of_bind_ok hn
      obtain ⟨canGoBack, -, hn⟩ := of_bind_ok hn
      obtain ⟨canGoForward, -, hn⟩ := of_bind_ok hn
      obtain ⟨loading, -, hn⟩ := of_bind_ok hn
      obtain ⟨capabilities, hcapabilities, hn⟩ := of_bind_ok hn
      obtain rfl := Except.ok.inj hn
      exact ⟨(retainKnown_ok hcaps rfl).2 _ hcapabilities, rfl, nofun⟩
  | cursor =>
      obtain ⟨shape, -, h⟩ := of_bind_ok h
      obtain rfl := Except.ok.inj h
      refine ⟨?_, rfl, nofun⟩
      show cursors.contains (if cursors.contains shape = true then shape else "default") = true
      split_ifs with hknown
      · exact hknown
      · decide
  | scroll =>
      obtain ⟨_, hx, h⟩ := of_bind_ok h
      obtain ⟨_, hy, h⟩ := of_bind_ok h
      obtain ⟨s, hs, h⟩ := of_bind_ok h
      obtain rfl := Except.ok.inj h
      rw [Value.readScroll] at hs
      obtain ⟨x, hx', hs⟩ := of_bind_ok hs
      obtain ⟨y, hy', hs⟩ := of_bind_ok hs
      obtain ⟨capabilities, hcapabilities, hs⟩ := of_bind_ok hs
      obtain rfl := Except.ok.inj hs
      exact ⟨⟨normal_of_checkAxis hx hx', normal_of_checkAxis hy hy',
        (retainKnown_ok hcaps rfl).2 _ hcapabilities⟩, rfl, nofun⟩
  | window =>
      obtain ⟨_, hsize, h⟩ := of_bind_ok h
      obtain ⟨w, hw, h⟩ := of_bind_ok h
      obtain rfl := Except.ok.inj h
      rw [Value.readWindow] at hw
      obtain ⟨title, -, hw⟩ := of_bind_ok hw
      obtain ⟨requestedSize, hread, hw⟩ := of_bind_ok hw
      obtain ⟨ready, -, hw⟩ := of_bind_ok hw
      obtain rfl := Except.ok.inj hw
      refine ⟨?_, rfl, nofun⟩
      rintro s rfl
      exact normal_of_size hsize hread
  | presentation =>
      obtain ⟨_, hsize, h⟩ := of_bind_ok h
      obtain ⟨scale, hscale, h⟩ := of_bind_ok h
      obtain ⟨_, hrefuse, h⟩ := of_bind_ok h
      obtain ⟨p, hp, h⟩ := of_bind_ok h
      obtain rfl := Except.ok.inj h
      rw [Value.readPresentation] at hp
      obtain ⟨visible, -, hp⟩ := of_bind_ok hp
      obtain ⟨preferredSize, hread, hp⟩ := of_bind_ok hp
      obtain ⟨scale', hscale', hp⟩ := of_bind_ok hp
      obtain ⟨focused, -, hp⟩ := of_bind_ok hp
      obtain rfl := Except.ok.inj hp
      obtain ⟨rfl, hfinite⟩ := number_of_read hscale hscale'
      refine ⟨⟨?_, hfinite, Bool.eq_false_iff.mpr (not_of_refuse hrefuse)⟩, rfl, nofun⟩
      rintro s rfl
      exact normal_of_size hsize hread

/-- **What `parse_snapshot` returns is normal**, and of the domain that it was asked for; only
null is a withdrawal. -/
lemma normal_of_parse {d : Domain} {b : Value} {v : Snapshot} (h : parseSnapshot d b = .ok v) :
    v.Normal ∧ v.domain = d ∧ (b.isNull = false → ∀ d', v ≠ .withdraw d') := by
  rw [parseSnapshot] at h
  by_cases hnull : b.isNull = true
  · rw [if_pos hnull] at h
    obtain rfl := Except.ok.inj h
    refine ⟨trivial, rfl, fun hnot => ?_⟩
    rw [hnull] at hnot
    cases hnot
  · rw [if_neg hnull] at h
    split_ifs at h
    obtain ⟨b', hb', h⟩ := of_bind_ok h
    obtain ⟨hnormal, hdomain, hne⟩ := normal_of_parseBody hb' h
    exact ⟨hnormal, hdomain, fun _ => hne⟩

/-- A body that has what its domain requires goes through to its arm. -/
lemma parseSnapshot_of_required {d : Domain} {b b' : Value} (hnull : b.isNull = false)
    (hobject : b.isObject = true) (hrequired : (required d).any (fun k => (b.get k).isNone) = false)
    (hcaps : retainKnown d b = .ok b') : parseSnapshot d b = parseBody d b' := by
  rw [parseSnapshot, hnull, if_neg (by decide), if_neg, hcaps]
  · rfl
  · rw [hobject, hrequired]
    decide

/-- **The body of a normal snapshot is read back as it was written.** -/
lemma parse_of_normal {v : Snapshot} (h : v.Normal) : parseSnapshot v.domain v.body = .ok v := by
  cases v with
  | media m =>
      have hcaps : retainKnown .media (.ofMedia m) = .ok (.ofMedia m) :=
        retainKnown_of_known h.capabilities rfl rfl
      have hposition : (Value.ofMedia m).index "position" = .ofOption .ofF64 m.position := rfl
      have hduration : (Value.ofMedia m).index "duration" = .ofOption .ofF64 m.duration := rfl
      have hrate : (Value.ofMedia m).index "rate" = .ofF64 m.rate := rfl
      have hstatus : (Value.ofMedia m).index "status" = .string m.status := rfl
      have htitle : (Value.ofMedia m).index "title" = .ofOption .string m.title := rfl
      have hartwork : (Value.ofMedia m).index "artwork" = .ofOption .ofArtwork m.artwork := rfl
      have hflags : (Value.ofMedia m).index "capabilities" =
          .object (Value.ofFlags m.capabilities) := rfl
      have hread : (Value.ofMedia m).readMedia = .ok m := by
        rw [Value.readMedia, hposition, hduration, hrate, hstatus, htitle, hartwork, hflags,
          readTime_ofOption h.position, readF64_ofF64 h.rate, readTime_ofOption h.duration,
          readOption_string, readArtwork_ofOption, readFlags_ofFlags]
        rfl
      show parseSnapshot .media (.ofMedia m) = _
      rw [parseSnapshot_of_required rfl rfl rfl hcaps, parseBody, hposition, hduration, hrate,
        checkTime_ofOption h.position, bind_ok, checkTime_ofOption h.duration, bind_ok,
        number_ofF64 h.rate, bind_ok, checkOrder_ofOption h.position h.duration h.order, bind_ok,
        normalStatus_of_known hstatus h.status, bind_ok, normalArtwork_ofOption hartwork, bind_ok,
        hread]
      rfl
  | navigation n =>
      have hcaps : retainKnown .navigation (.ofNavigation n) = .ok (.ofNavigation n) :=
        retainKnown_of_known h rfl rfl
      have hurl : (Value.ofNavigation n).index "url" = .ofOption .string n.url := rfl
      have htitle : (Value.ofNavigation n).index "title" = .ofOption .string n.title := rfl
      have hback : (Value.ofNavigation n).index "can_go_back" = .bool n.canGoBack := rfl
      have hforward : (Value.ofNavigation n).index "can_go_forward" = .bool n.canGoForward := rfl
      have hloading : (Value.ofNavigation n).index "loading" = .bool n.loading := rfl
      have hflags : (Value.ofNavigation n).index "capabilities" =
          .object (Value.ofFlags n.capabilities) := rfl
      have hread : (Value.ofNavigation n).readNavigation = .ok n := by
        rw [Value.readNavigation, hurl, htitle, hback, hforward, hloading, hflags,
          readOption_string, readOption_string, readFlags_ofFlags]
        rfl
      show parseSnapshot .navigation (.ofNavigation n) = _
      rw [parseSnapshot_of_required rfl rfl rfl hcaps, parseBody, hread]
      rfl
  | cursor shape =>
      have hcaps : retainKnown .cursor (.object [("shape", .string shape)]) =
          .ok (.object [("shape", .string shape)]) := rfl
      show parseSnapshot .cursor (.object [("shape", .string shape)]) = _
      rw [parseSnapshot_of_required rfl rfl rfl hcaps, parseBody]
      show Except.ok (Snapshot.cursor (if cursors.contains shape = true then shape else "default")) = _
      have hknown : cursors.contains shape = true := h
      rw [if_pos hknown]
  | scroll s =>
      obtain ⟨hx, hy, hknown⟩ := h
      have hcaps : retainKnown .scroll (.ofScroll s) = .ok (.ofScroll s) :=
        retainKnown_of_known hknown rfl rfl
      have hix : (Value.ofScroll s).index "x" = .ofAxis s.x := rfl
      have hiy : (Value.ofScroll s).index "y" = .ofAxis s.y := rfl
      have hflags : (Value.ofScroll s).index "capabilities" =
          .object (Value.ofFlags s.capabilities) := rfl
      have hread : (Value.ofScroll s).readScroll = .ok s := by
        rw [Value.readScroll, hix, hiy, hflags, readAxis_ofAxis hx, readAxis_ofAxis hy,
          readFlags_ofFlags]
        rfl
      show parseSnapshot .scroll (.ofScroll s) = _
      rw [parseSnapshot_of_required rfl rfl rfl hcaps, parseBody, hix, hiy, checkAxis_ofAxis hx,
        bind_ok, checkAxis_ofAxis hy, bind_ok, hread]
      rfl
  | window w =>
      have hcaps : retainKnown .window (.ofWindow w) = .ok (.ofWindow w) := rfl
      have htitle : (Value.ofWindow w).index "title" = .ofOption .string w.title := rfl
      have hsize : (Value.ofWindow w).index "requested_size" =
          .ofOption .ofSize w.requestedSize := rfl
      have hready : (Value.ofWindow w).index "ready" = .bool w.ready := rfl
      have hread : (Value.ofWindow w).readWindow = .ok w := by
        rw [Value.readWindow, htitle, hsize, hready, readOption_string,
          readOption_ofOption fun s hs => ⟨rfl, readSize_ofSize (h s hs)⟩]
        rfl
      show parseSnapshot .window (.ofWindow w) = _
      rw [parseSnapshot_of_required rfl rfl rfl hcaps, parseBody, hsize, size_ofOption h, bind_ok,
        hread]
      rfl
  | presentation p =>
      obtain ⟨hnormal, hfinite, hpositive⟩ := h
      have hcaps : retainKnown .presentation (.ofPresentation p) = .ok (.ofPresentation p) := rfl
      have hvisible : (Value.ofPresentation p).index "visible" = .bool p.visible := rfl
      have hsize : (Value.ofPresentation p).index "preferred_size" =
          .ofOption .ofSize p.preferredSize := rfl
      have hscale : (Value.ofPresentation p).index "scale" = .ofF64 p.scale := rfl
      have hfocused : (Value.ofPresentation p).index "focused" = .bool p.focused := rfl
      have hread : (Value.ofPresentation p).readPresentation = .ok p := by
        rw [Value.readPresentation, hvisible, hsize, hscale, hfocused, readF64_ofF64 hfinite,
          readOption_ofOption fun s hs => ⟨rfl, readSize_ofSize (hnormal s hs)⟩]
        rfl
      show parseSnapshot .presentation (.ofPresentation p) = _
      rw [parseSnapshot_of_required rfl rfl rfl hcaps, parseBody, hsize, hscale,
        size_ofOption hnormal, bind_ok, number_ofF64 hfinite, bind_ok,
        refuse_of_not (by rw [hpositive]; decide), bind_ok, hread]
      rfl
  | withdraw d => rfl

end Jackstay.Affordances
