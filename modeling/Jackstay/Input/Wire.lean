import Mathlib.Algebra.Order.BigOperators.Group.List
import Mathlib.Algebra.Order.Group.Nat
import Jackstay.Input.Bounds

/-!
`framing.rs`: what a pass of `serve` queues for its client.

A frame is the length of a message and its JSON. `Framed::send` refuses a message that
would take the queued bytes over `MAX_BUFFER`. The texts are those of `serde_json`; how it
writes an `f64` is a parameter.

* `Status.size_le`: no status takes more than 164 bytes of the buffer.
* `statuses_fit`: with at most 1588 events, a pass that finds the buffer empty never
  overflows it.
* `statuses_overflow`: with 4096 events, the resets of one mailbox do.
-/

namespace Jackstay.Input

open Traces

/-! ### Numbers -/

/-- The sign bit is set. -/
def F64.neg (x : F64) : F64 := ⟨UInt64.ofNat (x.bits.toNat + 2 ^ 63)⟩

/-- **How `serde_json` writes an `f64`**: the shortest digits that read back as the value,
in a buffer of 24 bytes, with a sign in front of a negative value. -/
structure FloatText where
  format : F64 → String
  size_le : ∀ x, x.isFinite = true → (format x).utf8ByteSize ≤ 24
  format_neg : ∀ x, x.isFinite = true → x.bits.toNat < 2 ^ 63 → format x.neg = "-" ++ format x

lemma F64.isFinite_neg {x : F64} (h : x.isFinite = true) (hx : x.bits.toNat < 2 ^ 63) :
    x.neg.isFinite = true := by
  have hbits : x.neg.bits.toNat = x.bits.toNat + 2 ^ 63 := by
    rw [F64.neg, UInt64.toNat_ofNat']
    omega
  have hexp : x.neg.exponent = x.exponent := by
    rw [F64.exponent, F64.exponent, hbits]
    omega
  rw [F64.isFinite, hexp]
  exact h

lemma F64.bits_lt_of_pos {x : F64} (h : F64.zero.lt x = true) : x.bits.toNat < 2 ^ 63 := by
  by_contra hx
  have hrank : F64.zero.rank < x.rank := by
    rw [F64.lt, Bool.and_eq_true, decide_eq_true_eq] at h
    exact h.2
  have hzero : F64.zero.rank = 0 := by decide
  rw [hzero, F64.rank, if_neg hx] at hrank
  omega

/-- A positive value has no sign. -/
lemma FloatText.size_le_of_pos (text : FloatText) {x : F64} (h : x.isFinite = true)
    (hx : F64.zero.lt x = true) : (text.format x).utf8ByteSize ≤ 23 := by
  have hbits := F64.bits_lt_of_pos hx
  have hneg := text.size_le x.neg (F64.isFinite_neg h hbits)
  have hsign : ("-" : String).utf8ByteSize = 1 := by decide
  rw [text.format_neg x h hbits, String.utf8ByteSize_append, hsign] at hneg
  omega

/-! ### Messages -/

/-- A member of a JSON object. -/
def member (name value : String) : String := "\"" ++ name ++ "\":" ++ value

/-- A JSON object without blanks. -/
def object (members : List String) : String := "\x7b" ++ ",".intercalate members ++ "\x7d"

/-- A JSON string that needs no escapes. -/
def quoted (name : String) : String := "\"" ++ name ++ "\""

/-- The decimal digits of a `u64`. -/
def decimal (n : UInt64) : String := n.toNat.repr

/-- The name of an `Error`. -/
def Error.name : Error → String
  | .invalid => "Invalid"
  | .unsupported => "Unsupported"
  | .busy => "Busy"
  | .closed => "Closed"
  | .stale => "Stale"
  | .overflow => "Overflow"
  | .cleanupFailed => "CleanupFailed"

/-- The name of an `Outcome`. -/
def Outcome.name : Outcome → String
  | .executed => "Executed"
  | .rejected => "Rejected"
  | .unsupported => "Unsupported"
  | .partially => "Partial"
  | .uncertain => "Uncertain"

/-- The name of a `Reason`. -/
def Reason.name : Reason → String
  | .focus => "Focus"
  | .geometry => "Geometry"
  | .disconnect => "Disconnect"
  | .expired => "Expired"
  | .overflow => "Overflow"
  | .execution => "Execution"

/-- `Geometry`, as it is written. -/
def Geometry.json (text : FloatText) (g : Geometry) : String :=
  object [member "revision" (decimal g.revision), member "width" (text.format g.width),
    member "height" (text.format g.height)]

/-- `Status`, as it is written: the name of the variant and its fields. -/
def Status.json (text : FloatText) : Status → String
  | .coalesced count => object [member "Coalesced" (object [member "count" (decimal count)])]
  | .completed sequence outcome =>
      object [member "Completed" (object [member "sequence" (decimal sequence),
        member "outcome" (quoted outcome.name)])]
  | .rejected sequence error =>
      object [member "Rejected" (object [member "sequence" (decimal sequence),
        member "error" (quoted error.name)])]
  | .reset epoch geometry =>
      object [member "Reset" (object [member "epoch" (decimal epoch),
        member "geometry" (geometry.json text)])]
  | .closed reason clean =>
      object [member "Closed" (object [member "reason" (quoted reason.name),
        member "clean" (if clean then "true" else "false")])]

/-- `Wire::Reply` of a status. -/
def Status.reply (text : FloatText) (status : Status) : String :=
  object [member "Reply" (status.json text)]

/-- `Wire::Heartbeat`. -/
def heartbeatMessage : String := quoted "Heartbeat"

/-! ### Sizes -/

lemma utf8ByteSize_ofList_of_isDigit {cs : List Char} (h : ∀ c ∈ cs, c.isDigit = true) :
    (String.ofList cs).utf8ByteSize = cs.length := by
  induction cs with
  | nil => rfl
  | cons c cs ih =>
      have hc : c.utf8Size = 1 := by
        have hdigit := h c List.mem_cons_self
        rw [Char.isDigit_iff_toNat] at hdigit
        rw [Char.utf8Size_eq_one_iff, UInt32.le_iff_toNat_le]
        exact hdigit.2.trans (by decide)
      rw [String.ofList_cons, String.utf8ByteSize_append, String.utf8ByteSize_singleton, hc,
        ih fun d hd => h d (List.mem_cons_of_mem c hd), List.length_cons, Nat.add_comm]

/-- A `u64` has at most 20 digits. -/
lemma decimal_size_le (n : UInt64) : (decimal n).utf8ByteSize ≤ 20 := by
  have hdigits : ∀ c ∈ Nat.toDigits 10 n.toNat, c.isDigit = true :=
    fun c hc => Nat.isDigit_of_mem_toDigits (by decide) (by decide) hc
  rw [decimal, Nat.repr_eq_ofList_toDigits, utf8ByteSize_ofList_of_isDigit hdigits,
    Nat.length_toDigits_le_iff (by decide) (by decide)]
  exact n.toNat_lt.trans (by decide)

/-- The members of an object, with the commas between them and the braces around them. -/
lemma object_size (m : String) (ms : List String) :
    (object (m :: ms)).utf8ByteSize =
      m.utf8ByteSize + (ms.map fun x => x.utf8ByteSize + 1).sum + 2 := by
  have hopen : ("\x7b" : String).utf8ByteSize = 1 := by decide
  have hcomma : ("," : String).utf8ByteSize = 1 := by decide
  have hclose : ("\x7d" : String).utf8ByteSize = 1 := by decide
  have hlist : ∀ m : String, (",".intercalate (m :: ms)).utf8ByteSize =
      m.utf8ByteSize + (ms.map fun x => x.utf8ByteSize + 1).sum := by
    induction ms with
    | nil =>
        intro m
        rw [String.intercalate_singleton]
        rfl
    | cons x ms ih =>
        intro m
        rw [String.intercalate_cons_cons, String.utf8ByteSize_append, String.utf8ByteSize_append,
          hcomma, ih x, List.map_cons, List.sum_cons]
        omega
  rw [object, String.utf8ByteSize_append, String.utf8ByteSize_append, hopen, hclose, hlist]
  omega

lemma member_size (name value : String) :
    (member name value).utf8ByteSize = name.utf8ByteSize + value.utf8ByteSize + 3 := by
  have hopen : ("\"" : String).utf8ByteSize = 1 := by decide
  have hclose : ("\":" : String).utf8ByteSize = 2 := by decide
  rw [member, String.utf8ByteSize_append, String.utf8ByteSize_append, String.utf8ByteSize_append,
    hopen, hclose]
  omega

lemma quoted_size (name : String) : (quoted name).utf8ByteSize = name.utf8ByteSize + 2 := by
  have hquote : ("\"" : String).utf8ByteSize = 1 := by decide
  rw [quoted, String.utf8ByteSize_append, String.utf8ByteSize_append, hquote]
  omega

/-- An object with one member. -/
lemma object_size_one (name value : String) :
    (object [member name value]).utf8ByteSize = name.utf8ByteSize + value.utf8ByteSize + 5 := by
  rw [object_size, List.map_nil, List.sum_nil, member_size]
  omega

/-- An object with two members. -/
lemma object_size_two (name value name' value' : String) :
    (object [member name value, member name' value']).utf8ByteSize =
      name.utf8ByteSize + value.utf8ByteSize + (name'.utf8ByteSize + value'.utf8ByteSize) + 9 := by
  rw [object_size, List.map_cons, List.map_nil, List.sum_cons, List.sum_nil, member_size,
    member_size]
  omega

/-- A geometry that has passed its check. -/
lemma Geometry.size_le (text : FloatText) {g : Geometry} (h : g.valid = true) :
    (g.json text).utf8ByteSize ≤ 98 := by
  simp only [Geometry.valid, Bool.and_eq_true] at h
  obtain ⟨⟨⟨⟨-, hwidth⟩, hheight⟩, hw⟩, hh⟩ := h
  have hrevision := decimal_size_le g.revision
  have hw := text.size_le_of_pos hwidth hw
  have hh := text.size_le_of_pos hheight hh
  have hnames : ("revision" : String).utf8ByteSize = 8 ∧ ("width" : String).utf8ByteSize = 5 ∧
      ("height" : String).utf8ByteSize = 6 := by decide
  rw [Geometry.json, object_size, List.map_cons, List.map_cons, List.map_nil, List.sum_cons,
    List.sum_cons, List.sum_nil, member_size, member_size, member_size, hnames.1, hnames.2.1,
    hnames.2.2]
  omega

/-- What a reset tells is a geometry that has passed its check. -/
def Status.Measured : Status → Prop
  | .reset _ g => g.valid = true
  | _ => True

lemma Status.reply_size (text : FloatText) (status : Status) :
    (status.reply text).utf8ByteSize = (status.json text).utf8ByteSize + 10 := by
  have hname : ("Reply" : String).utf8ByteSize = 5 := by decide
  rw [Status.reply, object_size_one, hname]
  omega

/-- A refusal names its sequence and its error. -/
lemma Status.rejected_size_le (text : FloatText) (sequence : UInt64) (error : Error) :
    ((Status.rejected sequence error).reply text).utf8ByteSize ≤ 80 := by
  have hsequence := decimal_size_le sequence
  have hnames : ("Rejected" : String).utf8ByteSize = 8 ∧
      ("sequence" : String).utf8ByteSize = 8 ∧ ("error" : String).utf8ByteSize = 5 := by decide
  have herror : error.name.utf8ByteSize ≤ 13 := by cases error <;> decide
  rw [Status.reply_size, Status.json, object_size_one, object_size_two, quoted_size, hnames.1,
    hnames.2.1, hnames.2.2]
  omega

/-- **No status is larger than a reset.** -/
lemma Status.size_le (text : FloatText) {status : Status} (h : status.Measured) :
    (status.reply text).utf8ByteSize ≤ 160 := by
  cases status with
  | coalesced count =>
      have hcount := decimal_size_le count
      have hnames : ("Coalesced" : String).utf8ByteSize = 9 ∧
          ("count" : String).utf8ByteSize = 5 := by decide
      rw [Status.reply_size, Status.json, object_size_one, object_size_one, hnames.1, hnames.2]
      omega
  | completed sequence outcome =>
      have hsequence := decimal_size_le sequence
      have hnames : ("Completed" : String).utf8ByteSize = 9 ∧
          ("sequence" : String).utf8ByteSize = 8 ∧ ("outcome" : String).utf8ByteSize = 7 := by
        decide
      have houtcome : outcome.name.utf8ByteSize ≤ 11 := by cases outcome <;> decide
      rw [Status.reply_size, Status.json, object_size_one, object_size_two, quoted_size, hnames.1,
        hnames.2.1, hnames.2.2]
      omega
  | rejected sequence error =>
      exact (Status.rejected_size_le text sequence error).trans (by decide)
  | reset epoch geometry =>
      have hepoch := decimal_size_le epoch
      have hgeometry := Geometry.size_le text h
      have hnames : ("Reset" : String).utf8ByteSize = 5 ∧ ("epoch" : String).utf8ByteSize = 5 ∧
          ("geometry" : String).utf8ByteSize = 8 := by decide
      rw [Status.reply_size, Status.json, object_size_one, object_size_two, hnames.1, hnames.2.1,
        hnames.2.2]
      omega
  | closed reason clean =>
      have hnames : ("Closed" : String).utf8ByteSize = 6 ∧
          ("reason" : String).utf8ByteSize = 6 ∧ ("clean" : String).utf8ByteSize = 5 := by decide
      have hreason : reason.name.utf8ByteSize ≤ 10 := by cases reason <;> decide
      have hclean : (if clean then "true" else "false" : String).utf8ByteSize ≤ 5 := by
        cases clean <;> decide
      rw [Status.reply_size, Status.json, object_size_one, object_size_two, quoted_size, hnames.1,
        hnames.2.1, hnames.2.2]
      omega

/-- Each reset takes its share of the buffer. -/
lemma Status.le_reset_size (text : FloatText) (epoch : UInt64) (geometry : Geometry) :
    74 ≤ ((Status.reset epoch geometry).reply text).utf8ByteSize := by
  have hnames : ("Reset" : String).utf8ByteSize = 5 ∧ ("epoch" : String).utf8ByteSize = 5 ∧
      ("geometry" : String).utf8ByteSize = 8 := by decide
  have hnames' : ("revision" : String).utf8ByteSize = 8 ∧ ("width" : String).utf8ByteSize = 5 ∧
      ("height" : String).utf8ByteSize = 6 := by decide
  rw [Status.reply_size, Status.json, object_size_one, object_size_two, Geometry.json, object_size,
    List.map_cons, List.map_cons, List.map_nil, List.sum_cons, List.sum_cons, List.sum_nil,
    member_size, member_size, member_size, hnames.1, hnames.2.1, hnames.2.2, hnames'.1,
    hnames'.2.1, hnames'.2.2]
  omega

/-! ### The buffer -/

/-- `MAX_FRAME`. -/
def maxFrame : ℕ := 128 * 1024

/-- `MAX_BUFFER`. -/
def maxBuffer : ℕ := 512 * 1024

/-- A frame: the length of the message, in four bytes, and the message. -/
structure Frame where
  length : UInt32
  json : String
  deriving DecidableEq, Repr

/-- `Framed`, what it has queued for the stream. -/
structure Framed where
  output : List Frame := []
  queued : ℕ := 0
  deriving DecidableEq, Repr

/-- `Framed::send`; the one error is "input wire bound exceeded". -/
def Framed.send (wire : Framed) (json : String) : Except String Framed :=
  let length := json.utf8ByteSize
  if length = 0 ∨ maxFrame < length ∨ maxBuffer < wire.queued + length + 4 then
    .error "input wire bound exceeded"
  else .ok { output := wire.output ++ [⟨.ofNat length, json⟩], queued := wire.queued + (length + 4) }

/-- One `send` after the other, until one fails. -/
def Framed.sendAll (wire : Framed) : List String → Except String Framed
  | [] => .ok wire
  | json :: rest => do
      let wire ← wire.send json
      wire.sendAll rest

/-- **What a pass of `serve` sends**: the rejections of the messages that it receives, what
is in the mailbox, and the heartbeat that is due. -/
def passMessages (text : FloatText) (refused : List (UInt64 × Error)) (mailbox : List Status)
    (due : Bool) : List String :=
  (refused.map fun r => (Status.rejected r.1 r.2).reply text) ++
    mailbox.map (Status.reply text) ++ if due then [heartbeatMessage] else []

/-- The bytes that messages take of the buffer. -/
def frameBytes (messages : List String) : ℕ := (messages.map fun json => json.utf8ByteSize + 4).sum

lemma frameBytes_append (xs ys : List String) :
    frameBytes (xs ++ ys) = frameBytes xs + frameBytes ys := by
  rw [frameBytes, List.map_append, List.sum_append]
  rfl

/-- Messages that fit are all queued. -/
lemma Framed.sendAll_ok {wire : Framed} {messages : List String}
    (hsmall : ∀ json ∈ messages, json.utf8ByteSize ≠ 0 ∧ json.utf8ByteSize ≤ maxFrame)
    (hfit : wire.queued + frameBytes messages ≤ maxBuffer) :
    ∃ wire', wire.sendAll messages = .ok wire' := by
  induction messages generalizing wire with
  | nil => exact ⟨wire, rfl⟩
  | cons json rest ih =>
      obtain ⟨hne, hle⟩ := hsmall json List.mem_cons_self
      rw [frameBytes, List.map_cons, List.sum_cons] at hfit
      have hsend : wire.send json = .ok ⟨wire.output ++ [⟨.ofNat json.utf8ByteSize, json⟩],
          wire.queued + (json.utf8ByteSize + 4)⟩ := by
        rw [Framed.send, if_neg]
        omega
      have hfit' : (⟨wire.output ++ [⟨.ofNat json.utf8ByteSize, json⟩],
          wire.queued + (json.utf8ByteSize + 4)⟩ : Framed).queued + frameBytes rest ≤ maxBuffer := by
        have hrest : (rest.map fun json => json.utf8ByteSize + 4).sum = frameBytes rest := rfl
        rw [hrest] at hfit
        show wire.queued + (json.utf8ByteSize + 4) + frameBytes rest ≤ maxBuffer
        omega
      obtain ⟨wire', hrest⟩ := ih (fun j hj => hsmall j (List.mem_cons_of_mem json hj)) hfit'
      refine ⟨wire', ?_⟩
      rw [Framed.sendAll, hsend]
      exact hrest

/-- Messages that are all queued have fitted. -/
lemma Framed.frameBytes_le {wire wire' : Framed} {messages : List String}
    (h : wire.sendAll messages = .ok wire') (hwire : wire.queued ≤ maxBuffer) :
    wire.queued + frameBytes messages ≤ maxBuffer := by
  induction messages generalizing wire with
  | nil => exact hwire
  | cons json rest ih =>
      rw [Framed.sendAll] at h
      rw [frameBytes, List.map_cons, List.sum_cons]
      by_cases hc : json.utf8ByteSize = 0 ∨ maxFrame < json.utf8ByteSize ∨
          maxBuffer < wire.queued + json.utf8ByteSize + 4
      · rw [Framed.send, if_pos hc] at h
        cases h
      · rw [Framed.send, if_neg hc] at h
        have hrest := ih h (by show wire.queued + (json.utf8ByteSize + 4) ≤ maxBuffer; omega)
        have hgoal : wire.queued + (json.utf8ByteSize + 4) + frameBytes rest ≤ maxBuffer := hrest
        have hsum : (rest.map fun json => json.utf8ByteSize + 4).sum = frameBytes rest := rfl
        omega

/-- Each message takes at most so many bytes. -/
lemma frameBytes_le {messages : List String} {n : ℕ}
    (h : ∀ json ∈ messages, json.utf8ByteSize ≤ n) :
    frameBytes messages ≤ messages.length * (n + 4) := by
  have hsum := List.sum_le_card_nsmul (messages.map fun json => json.utf8ByteSize + 4) (n + 4)
    fun x hx => by
      obtain ⟨json, hmem, rfl⟩ := List.mem_map.mp hx
      exact Nat.add_le_add_right (h json hmem) 4
  rwa [List.length_map] at hsum

/-- Each message takes at least so many bytes. -/
lemma le_frameBytes {messages : List String} {n : ℕ}
    (h : ∀ json ∈ messages, n ≤ json.utf8ByteSize) :
    messages.length * (n + 4) ≤ frameBytes messages := by
  have hsum := List.card_nsmul_le_sum (messages.map fun json => json.utf8ByteSize + 4) (n + 4)
    fun x hx => by
      obtain ⟨json, hmem, rfl⟩ := List.mem_map.mp hx
      exact Nat.add_le_add_right (h json hmem) 4
  rwa [List.length_map] at hsum

/-! ### The statuses of a target -/

namespace State

variable {s s' : State} {a : Active} {statuses : List Status} {queue kept : List Work}

/-- The geometry of a target has passed its check, and so has every geometry that it has
told. -/
structure Measured (s : State) : Prop where
  geometry : s.config.geometry.valid = true
  mailbox : ∀ c, ∀ status ∈ s.mailboxes c, status.Measured

/-- The mailbox of one controller changes. -/
lemma Measured.update (h : s.Measured) {s' : State} {id : UInt64} (mailbox : List Status)
    (hconfig : s'.config.geometry.valid = true)
    (hmailboxes : s'.mailboxes = Function.update s.mailboxes id mailbox)
    (hmailbox : ∀ status ∈ mailbox, status.Measured) : s'.Measured := by
  refine ⟨hconfig, fun c status hstatus => ?_⟩
  rw [hmailboxes] at hstatus
  by_cases hc : c = id
  · subst hc
    rw [Function.update_self] at hstatus
    exact hmailbox status hstatus
  · rw [Function.update_of_ne hc] at hstatus
    exact h.mailbox c status hstatus

lemma Posts.measured (hp : s.Posts a statuses queue kept s') (h : s.Measured)
    (hstatuses : ∀ status ∈ statuses, status.Measured) : s'.Measured := by
  cases hp with
  | appended hfit =>
      refine h.update (s.mailboxes a.id ++ statuses) h.geometry rfl fun status hmem => ?_
      rcases List.mem_append.mp hmem with hmem | hmem
      · exact h.mailbox _ status hmem
      · exact hstatuses status hmem
  | overflowed rest hrest hfull =>
      refine h.update [.closed .overflow false] h.geometry rfl fun status hmem => ?_
      rw [List.mem_singleton.mp hmem]
      trivial

lemma Counts.measured (hp : s.Counts a s') (h : s.Measured) : s'.Measured := by
  cases hp with
  | merged rest count hbox =>
      refine h.update (rest ++ [.coalesced (saturatingAdd count 1)]) h.geometry rfl
        fun status hmem => ?_
      rcases List.mem_append.mp hmem with hmem | hmem
      · exact h.mailbox a.id status (hbox ▸ List.mem_append_left _ hmem)
      · rw [List.mem_singleton.mp hmem]
        trivial
  | appended hroom =>
      have hp : s.Posts a [.coalesced 1] s.queue [] (s.append a [.coalesced 1]) :=
        .appended fun _ => by simp only [List.length_singleton]; omega
      refine hp.measured h fun status hmem => ?_
      rw [List.mem_singleton.mp hmem]
      trivial
  | overflowed hfull =>
      refine h.update [.closed .overflow false] h.geometry rfl fun status hmem => ?_
      rw [List.mem_singleton.mp hmem]
      trivial

lemma Cancels.measured {scope : Scope} {reason : Reason} {ending : Bool}
    (hc : s.Cancels scope reason ending s') (h : s.Measured) : s'.Measured := by
  cases hc with
  | inactive ha => exact h
  | sufficed a ha hf => exact h
  | barred a s' ha hf hp =>
      have hbar : ({ s with barrier := some (s.barred scope reason ending) } : State).Measured :=
        ⟨h.geometry, h.mailbox⟩
      refine hp.measured hbar fun status hmem => ?_
      obtain ⟨w, -, rfl⟩ := List.mem_map.mp hmem
      trivial

/-- A refusal is no reset. -/
lemma measured_refusal {pre : List Work} : ∀ status ∈ pre.filterMap s.refusal, status.Measured := by
  intro status hmem
  obtain ⟨w, -, hw⟩ := List.mem_filterMap.mp hmem
  rw [refusal] at hw
  split at hw
  · cases hw
  · cases hw
    trivial
  · cases hw
    trivial

/-- **Every call keeps what the resets tell.** -/
lemma Measured.acts (h : s.Measured) {l : Call} {r : Reply} (hacts : s.Acts l r s') :
    s'.Measured := by
  have one : ∀ {status : Status}, status.Measured → ∀ x ∈ [status], x.Measured := by
    intro status hs x hx
    rw [List.mem_singleton.mp hx]
    exact hs
  cases hacts with
  | admitted mode now id hfail ha hmode hid =>
      exact h.update [] h.geometry rfl fun status hmem => by cases hmem
  | dispatched now a r s' ha hf hb hd =>
      cases hd with
      | refused pre rest s' hq href hp hend => exact hp.measured h measured_refusal
      | dispatched pre w bound rest hq href hbind hfit =>
          refine h.update (s.mailboxes a.id ++ pre.filterMap s.refusal) h.geometry rfl
            fun status hmem => ?_
          rcases List.mem_append.mp hmem with hmem | hmem
          · exact h.mailbox _ status hmem
          · exact measured_refusal status hmem
  | completed f event outcome a mid s' hf hop ha hp hkeep hcancel =>
      have hmid : mid.Measured := hp.measured ⟨h.geometry, h.mailbox⟩ (one trivial)
      by_cases ho : outcome.Ends
      · exact (hcancel ho).measured hmid
      · rw [hkeep ho]
        exact hmid
  | cleanupFailed f scope reason outcome a mid hf hop ha ho hp =>
      have hmid : mid.Measured := hp.measured ⟨h.geometry, h.mailbox⟩ (one trivial)
      exact ⟨hmid.geometry, hmid.mailbox⟩
  | cleanupEnded f scope reason a mid hf hop ha hend hp =>
      have hmid : mid.Measured := hp.measured ⟨h.geometry, h.mailbox⟩ (one trivial)
      exact ⟨hmid.geometry, hmid.mailbox⟩
  | cleanupRenewed f scope reason a s' hf hop ha hend hb hp =>
      exact hp.measured ⟨h.geometry, h.mailbox⟩ (one h.geometry)
  | geometry g s' hv hrev hc => exact hc.measured ⟨hv, h.mailbox⟩
  | superseded c now epoch sequence event a front tail motion s' hr hm hq hop hmot hcount =>
      exact hcount.measured ⟨h.geometry, h.mailbox⟩
  | overflowed c now epoch sequence event a s' hr hfull hc =>
      exact hc.measured ⟨h.geometry, h.mailbox⟩
  | reset c a s' ha hid hc => exact hc.measured h
  | close l c a s' hl ha hid hc => exact hc.measured h
  | polled c =>
      exact h.update ((s.mailboxes c.id).tail) h.geometry rfl fun status hmem =>
        h.mailbox c.id status (List.mem_of_mem_tail hmem)
  | _ => exact ⟨h.geometry, h.mailbox⟩

/-- In every run. -/
lemma measured_of_reached (h : Reached s) : s.Measured := by
  refine h.invariant (fun config s₀ hnew => ?_) (fun s s' _ h hc => hc.measured h)
    fun s l r s' _ h hacts => h.acts hacts
  have hvalid : config.geometry.valid = true := by
    rw [State.new] at hnew
    split_ifs at hnew with hc
    simp only [not_or, Bool.not_eq_false] at hc
    exact hc.2.2.2.2.2.2.2.2.2.2.2
  rw [(new_eq hnew).1]
  exact ⟨hvalid, fun c status hmem => by cases hmem⟩

end State

/-! ### A pass of `serve` -/

/-- **Statuses fit the wire**: with at most 1588 events, a pass that finds nothing queued
can send the rejections of 32 messages, every status of the mailbox and a heartbeat. -/
theorem statuses_fit (text : FloatText) {config : Config} {tr : Trace} {s : State}
    (h : Run config Always tr s) (hmax : config.maxEvents ≤ 1588) (c : UInt64)
    (refused : List (UInt64 × Error)) (hrefused : refused.length ≤ 32) (due : Bool) :
    ∃ wire, ({} : Framed).sendAll (passMessages text refused (s.mailboxes c) due) = .ok wire := by
  have hreached : Reached s := ⟨config, tr, h⟩
  have hmailbox : (s.mailboxes c).length ≤ 2 * config.maxEvents + 4 := by
    have hbox := (State.bounded_of_reached hreached).mailbox c
    rw [State.mailboxCapacity, h.maxEvents] at hbox
    omega
  have hrejection : ∀ json ∈ refused.map fun r => (Status.rejected r.1 r.2).reply text,
      json.utf8ByteSize ≤ 80 := by
    intro json hmem
    obtain ⟨r, -, rfl⟩ := List.mem_map.mp hmem
    exact Status.rejected_size_le text r.1 r.2
  have hstatus : ∀ json ∈ (s.mailboxes c).map (Status.reply text), json.utf8ByteSize ≤ 160 := by
    intro json hmem
    obtain ⟨status, hst, rfl⟩ := List.mem_map.mp hmem
    exact Status.size_le text ((State.measured_of_reached hreached).mailbox c status hst)
  have hheartbeat : heartbeatMessage.utf8ByteSize = 11 := by decide
  have hdue : ∀ json ∈ (if due then [heartbeatMessage] else []), json.utf8ByteSize ≤ 11 := by
    intro json hmem
    cases due with
    | false => cases hmem
    | true => rw [List.mem_singleton.mp hmem, hheartbeat]
  refine Framed.sendAll_ok (fun json hmem => ?_) ?_
  · have hle : json.utf8ByteSize ≤ 160 := by
      rcases List.mem_append.mp hmem with hmem | hmem
      · rcases List.mem_append.mp hmem with hmem | hmem
        · exact (hrejection json hmem).trans (by decide)
        · exact hstatus json hmem
      · exact (hdue json hmem).trans (by decide)
    have hne : json.utf8ByteSize ≠ 0 := by
      rcases List.mem_append.mp hmem with hmem | hmem
      · rcases List.mem_append.mp hmem with hmem | hmem
        all_goals
          obtain ⟨x, -, rfl⟩ := List.mem_map.mp hmem
          rw [Status.reply_size]
          omega
      · cases due with
        | false => cases hmem
        | true =>
            rw [List.mem_singleton.mp hmem, hheartbeat]
            decide
    exact ⟨hne, hle.trans (by decide)⟩
  · have hrejections := frameBytes_le hrejection
    have hstatuses := frameBytes_le hstatus
    have hlast := frameBytes_le hdue
    have hlen : (if due then [heartbeatMessage] else []).length ≤ 1 := by cases due <;> decide
    rw [List.length_map] at hrejections hstatuses
    rw [passMessages, frameBytes_append, frameBytes_append]
    calc 0 + (frameBytes (refused.map fun r => (Status.rejected r.1 r.2).reply text) +
            frameBytes ((s.mailboxes c).map (Status.reply text)) +
            frameBytes (if due then [heartbeatMessage] else []))
        ≤ 0 + (32 * (80 + 4) + (2 * config.maxEvents + 4) * (160 + 4) + 1 * (11 + 4)) := by
          have h1 := hrejections.trans (Nat.mul_le_mul_right (80 + 4) hrefused)
          have h2 := hstatuses.trans (Nat.mul_le_mul_right (160 + 4) hmailbox)
          have h3 := hlast.trans (Nat.mul_le_mul_right (11 + 4) hlen)
          omega
      _ ≤ maxBuffer := by
          rw [maxBuffer]
          omega

/-- Values as they are written: 320.0 and 180.0, the size of the default geometry. -/
def plainText : FloatText where
  format x :=
    let digits := if x.magnitude = 0x4074000000000000 then "320.0"
      else if x.magnitude = 0x4066800000000000 then "180.0" else "1.0"
    if x.bits.toNat < 2 ^ 63 then digits else "-" ++ digits
  size_le x _ := by
    dsimp only
    split_ifs <;> decide
  format_neg x _ hx := by
    have hbits : x.neg.bits.toNat = x.bits.toNat + 2 ^ 63 := by
      rw [F64.neg, UInt64.toNat_ofNat']
      omega
    have hmag : x.neg.magnitude = x.magnitude := by
      rw [F64.magnitude, F64.magnitude, hbits]
      omega
    have hneg : ¬ x.neg.bits.toNat < 2 ^ 63 := by omega
    dsimp only
    rw [hmag, if_neg hneg, if_pos hx]

/-- A press has been executed, and two messages have been refused. -/
theorem statuses_fit_pressed :
    let s := (record State.call { config := tiny } pressed).2
    ∃ wire, ({} : Framed).sendAll
      (passMessages plainText [(1, .invalid), (2, .stale)] (s.mailboxes 1) true) = .ok wire :=
  statuses_fit plainText (Run.of_record tiny new_tiny pressed) (by decide) 1
    [(1, .invalid), (2, .stale)] (by decide) true

/-! ### A mailbox of resets -/

/-- A target that holds 4096 events. -/
def wide : Config := { Config.default with maxEvents := 4096 }

lemma new_wide : State.new wide = .ok { config := wide } := by
  rw [State.new]
  exact if_neg (by decide +kernel)

namespace State

/-- Nothing is queued, in flight or to be cleaned up for the controller, which has been
reset so many times and has polled nothing. -/
structure Resets (s : State) (n : ℕ) : Prop where
  config : s.config = wide
  active : ∃ a, s.active = some a ∧ a.id = 1 ∧ a.lastSeen = 0
  queue : s.queue = []
  flight : s.flight = none
  barrier : s.barrier = none
  mailbox : (s.mailboxes 1).length = n
  resets : ∀ status ∈ s.mailboxes 1, ∃ epoch geometry, status = .reset epoch geometry

/-- A reset, its cleanup and the completion of it. -/
def resetCalls (s : State) : List Call :=
  [.reset ⟨1, .cooperative⟩, .next 0, .complete (s.nextWork + 1) .executed]

lemma Resets.next {s : State} {n : ℕ} (h : s.Resets n) (hn : n < 8196) :
    (record State.call s s.resetCalls).2.Resets (n + 1) := by
  obtain ⟨hconfig, ⟨a, ha, hid, hseen⟩, hqueue, hflight, hbarrier, hlen, hresets⟩ := h
  obtain ⟨config, nextController, nextWork, active, queue, flight, barrier, failed, mailboxes,
    overflowed⟩ := s
  obtain ⟨id, mode, epoch, lastSequence, lastSeen, keys, buttons, scrollOpen⟩ := a
  dsimp only at hconfig ha hid hseen hqueue hflight hbarrier hlen hresets
  subst hconfig ha hid hseen hqueue hflight hbarrier
  -- the reset asks for a cleanup, which is then in flight
  let barred : State :=
    { config := wide, nextController, nextWork, failed, mailboxes, overflowed
      active := some ⟨1, mode, epoch, lastSequence, 0, keys, buttons, scrollOpen⟩
      barrier := some ⟨.all, .focus, false⟩ }
  let cleaning : State :=
    { config := wide, nextController, nextWork := nextWork + 1, failed, mailboxes, overflowed
      active := some ⟨1, mode, epoch, lastSequence, 0, keys, buttons, scrollOpen⟩
      flight := some ⟨⟨mode, nextWork + 1, 1, epoch, 0, .cleanup .all .focus⟩, false⟩ }
  -- and the next epoch begins
  let renewed : State :=
    { config := wide, nextController, nextWork := nextWork + 1, failed, mailboxes, overflowed
      active := some ⟨1, mode, epoch + 1, lastSequence, 0, ∅, ∅, false⟩ }
  have hnext : (barred.call (.next 0)).1 = cleaning := by
    have hexpire : barred.expire 0 = barred := by
      simp only [expire, barred]
      exact if_neg (by decide)
    simp only [call, State.next, hexpire]
    rfl
  have hcomplete : (cleaning.call (.complete (nextWork + 1) .executed)).1 =
      renewed.status (.reset (epoch + 1) wide.geometry) := by
    simp only [call, complete, cleaning, ne_eq, not_true_eq_false, if_false]
    rfl
  have hroom : ¬ renewed.mailboxCapacity ≤ (renewed.mailboxes 1).length := by
    have hcapacity : renewed.mailboxCapacity = 8196 := by
      simp only [mailboxCapacity, renewed, wide]
    have hsame : (renewed.mailboxes 1).length = n := hlen
    omega
  have hstatus : renewed.status (.reset (epoch + 1) wide.geometry) =
      renewed.append ⟨1, mode, epoch + 1, lastSequence, 0, ∅, ∅, false⟩
        [.reset (epoch + 1) wide.geometry] := by
    rw [status_eq (s := renewed) rfl rfl, if_neg hroom]
  have hmailbox : (renewed.append ⟨1, mode, epoch + 1, lastSequence, 0, ∅, ∅, false⟩
      [.reset (epoch + 1) wide.geometry]).mailboxes 1 =
        mailboxes 1 ++ [.reset (epoch + 1) wide.geometry] :=
    Function.update_self (1 : UInt64) _ mailboxes
  have hfinal : ∀ t : State, t = renewed.append ⟨1, mode, epoch + 1, lastSequence, 0, ∅, ∅, false⟩
      [.reset (epoch + 1) wide.geometry] → t.Resets (n + 1) := by
    rintro t rfl
    refine ⟨rfl, ⟨_, rfl, rfl, rfl⟩, rfl, rfl, rfl, ?_, ?_⟩
    · rw [hmailbox, List.length_append, hlen]
      rfl
    · rw [hmailbox]
      intro status hmem
      rcases List.mem_append.mp hmem with hmem | hmem
      · exact hresets status hmem
      · exact ⟨_, _, List.mem_singleton.mp hmem⟩
  refine hfinal _ ?_
  rw [← hstatus, ← hcomplete, ← hnext]
  rfl

end State

/-- Resets that nobody polls pile up, to the capacity of the mailbox. -/
lemma exists_run_resets (n : ℕ) (hn : n ≤ 8196) :
    ∃ tr s, Run wide Always tr s ∧ s.Resets n := by
  induction n with
  | zero =>
      have hrun := Run.of_record wide new_wide [.admitController .cooperative 0]
      have hnil : (record State.call { config := wide }
          [.admitController .cooperative 0]).2.mailboxes 1 = [] :=
        Function.update_self (1 : UInt64) _ fun _ => []
      refine ⟨_, _, hrun, rfl, ⟨_, rfl, rfl, rfl⟩, rfl, rfl, rfl, ?_, ?_⟩
      · rw [hnil]
        rfl
      · intro status hmem
        rw [hnil] at hmem
        cases hmem
  | succ n ih =>
      obtain ⟨tr, s, hrun, hs⟩ := ih (by omega)
      exact ⟨_, _, hrun.append (.of_record _ _ s.resetCalls), hs.next (by omega)⟩

/-- **A mailbox that does not fit the wire**: a target with 4096 events whose controller
is reset 8196 times between two passes. -/
theorem statuses_overflow :
    ¬ ∀ tr s, Run wide Always tr s → ∀ (c : UInt64) (refused : List (UInt64 × Error)),
      refused.length ≤ 32 → ∀ due, ∃ wire, ({} : Framed).sendAll
        (passMessages plainText refused (s.mailboxes c) due) = .ok wire := by
  intro hall
  obtain ⟨tr, s, hrun, hs⟩ := exists_run_resets 8196 le_rfl
  obtain ⟨wire, hwire⟩ := hall tr s hrun 1 [] (by decide) true
  have hle := Framed.frameBytes_le hwire (Nat.zero_le _)
  have hlarge : ∀ json ∈ (s.mailboxes 1).map (Status.reply plainText), 74 ≤ json.utf8ByteSize := by
    intro json hmem
    obtain ⟨status, hst, rfl⟩ := List.mem_map.mp hmem
    obtain ⟨epoch, geometry, rfl⟩ := hs.resets status hst
    exact Status.le_reset_size plainText epoch geometry
  have hsum := le_frameBytes hlarge
  rw [List.length_map, hs.mailbox] at hsum
  rw [passMessages, frameBytes_append, frameBytes_append, maxBuffer] at hle
  have hzero : ({} : Framed).queued = 0 := rfl
  omega

end Jackstay.Input
