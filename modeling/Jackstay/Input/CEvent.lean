import Jackstay.Input.Session
import Jackstay.Library.CString
import Jackstay.Library.Outcome

/-!
`ffi_input.rs`: events as the C interface passes them.

* `event` reads a C event, `describe` writes one;
* `events_round_trip`: an accepted event comes back from C as it was, a C event that is
  read is described again by the same fields, and scroll metadata that is absent, known
  to be none or present stay apart both ways.

A C character is its byte, and a text pointer is the bytes readable behind it.
-/

namespace Jackstay.Input.Ffi

open Jackstay.CString

/-! ### The record -/

/-- `FtInputEvent`. What a caller promises of `text` is a field. -/
structure FtInputEvent where
  kind : UInt32 := 0
  action : UInt32 := 0
  keyKind : UInt32 := 0
  modifiers : UInt32 := 0
  press : UInt64 := 0
  geometryRevision : UInt64 := 0
  button : UInt32 := 0
  scrollUnit : UInt32 := 0
  x : F64 := .zero
  y : F64 := .zero
  pointerX : F64 := .zero
  pointerY : F64 := .zero
  key : List UInt8 := List.replicate 64 0
  /-- the bytes readable at the pointer; `none` is null -/
  text : Option (List UInt8) := none
  textLen : ℕ := 0
  scrollPhase : UInt32 := 0
  scrollMomentumPhase : UInt32 := 0
  scrollInvertedFromDevice : UInt32 := 0
  key_length : key.length = 64 := by simp
  text_readable : ∀ bytes, text = some bytes → textLen ≤ bytes.length := by simp

/-! ### Codes -/

/-- `action`. -/
def action : UInt32 → Except Error Action
  | 1 => .ok .down
  | 2 => .ok .up
  | 3 => .ok .repeat
  | _ => .error .invalid

/-- `action_code`. -/
def actionCode : Action → UInt32
  | .down => 1
  | .up => 2
  | .repeat => 3

/-- The `phase` of a scroll in `event`. -/
def scrollPhase : UInt32 → Except Error (Option ScrollPhase)
  | 0 => .ok none
  | 1 => .ok (some .none)
  | 2 => .ok (some .mayBegin)
  | 3 => .ok (some .began)
  | 4 => .ok (some .stationary)
  | 5 => .ok (some .changed)
  | 6 => .ok (some .ended)
  | 7 => .ok (some .cancelled)
  | _ => .error .invalid

/-- The `scroll_phase` of `describe`. -/
def scrollPhaseCode : Option ScrollPhase → UInt32
  | none => 0
  | some .none => 1
  | some .mayBegin => 2
  | some .began => 3
  | some .stationary => 4
  | some .changed => 5
  | some .ended => 6
  | some .cancelled => 7

/-- The `momentum_phase` of a scroll in `event`. -/
def momentumPhase : UInt32 → Except Error (Option MomentumPhase)
  | 0 => .ok none
  | 1 => .ok (some .none)
  | 2 => .ok (some .began)
  | 3 => .ok (some .changed)
  | 4 => .ok (some .ended)
  | _ => .error .invalid

/-- The `scroll_momentum_phase` of `describe`. -/
def momentumPhaseCode : Option MomentumPhase → UInt32
  | none => 0
  | some .none => 1
  | some .began => 2
  | some .changed => 3
  | some .ended => 4

/-- The `inverted_from_device` of a scroll in `event`. -/
def inverted : UInt32 → Except Error (Option Bool)
  | 0 => .ok none
  | 1 => .ok (some false)
  | 2 => .ok (some true)
  | _ => .error .invalid

/-- The `scroll_inverted_from_device` of `describe`. -/
def invertedCode : Option Bool → UInt32
  | none => 0
  | some false => 1
  | some true => 2

/-- The `unit` of a scroll in `event`. -/
def scrollUnit : UInt32 → Except Error ScrollUnit
  | 1 => .ok .pixel
  | 2 => .ok .line
  | 3 => .ok .page
  | _ => .error .invalid

/-- The `scroll_unit` of `describe`. -/
def scrollUnitCode : ScrollUnit → UInt32
  | .pixel => 1
  | .line => 2
  | .page => 3

/-- The `key` of a key event in `event`. -/
def keyOf (name : String) : UInt32 → Except Error Key
  | 1 => .ok (.physical name)
  | 2 => .ok (.logical name)
  | _ => .error .invalid

/-- The `key_kind` of `describe`. -/
def keyKind : Key → UInt32
  | .physical _ => 1
  | .logical _ => 2

/-- A code that is read is the code of what is read, and every code reads back. -/
structure Codes {α β : Type} (read : α → Except Error β) (code : β → α) : Prop where
  read_code : ∀ b, read (code b) = .ok b
  code_read : ∀ {a b}, read a = .ok b → code b = a

/-- Two values with one code are the same. -/
lemma Codes.code_inj {α β : Type} {read : α → Except Error β} {code : β → α}
    (h : Codes read code) (b b' : β) : code b = code b' ↔ b = b' := by
  constructor
  · intro heq
    have hread : read (code b) = .ok b' := heq ▸ h.read_code b'
    rw [h.read_code] at hread
    exact Except.ok.inj hread
  · rintro rfl
    rfl

lemma action_codes : Codes action actionCode where
  read_code a := by cases a <;> rfl
  code_read {n a} h := by
    unfold action at h
    split at h <;> cases h <;> rfl

lemma scrollPhase_codes : Codes scrollPhase scrollPhaseCode where
  read_code p := by rcases p with _ | p <;> [rfl; cases p <;> rfl]
  code_read {n p} h := by
    unfold scrollPhase at h
    split at h <;> cases h <;> rfl

lemma momentumPhase_codes : Codes momentumPhase momentumPhaseCode where
  read_code p := by rcases p with _ | p <;> [rfl; cases p <;> rfl]
  code_read {n p} h := by
    unfold momentumPhase at h
    split at h <;> cases h <;> rfl

lemma inverted_codes : Codes inverted invertedCode where
  read_code b := by rcases b with _ | b <;> [rfl; cases b <;> rfl]
  code_read {n b} h := by
    unfold inverted at h
    split at h <;> cases h <;> rfl

lemma scrollUnit_codes : Codes scrollUnit scrollUnitCode where
  read_code u := by cases u <;> rfl
  code_read {n u} h := by
    unfold scrollUnit at h
    split at h <;> cases h <;> rfl

/-- The name and the kind make the key. -/
lemma keyOf_keyKind (key : Key) : keyOf key.name (keyKind key) = .ok key := by
  cases key <;> rfl

lemma keyOf_eq_ok {name : String} {n : UInt32} {key : Key} (h : keyOf name n = .ok key) :
    key.name = name ∧ keyKind key = n := by
  unfold keyOf at h
  split at h <;> cases h <;> exact ⟨rfl, rfl⟩

/-! ### The two conversions -/

/-- `event`. -/
def event (e : FtInputEvent) : Except Error Event :=
  if e.kind ≠ 5 ∧ (e.scrollPhase ≠ 0 ∨ e.scrollMomentumPhase ≠ 0 ∨
      e.scrollInvertedFromDevice ≠ 0) then .error .invalid
  else
    let p : Position := ⟨e.geometryRevision, e.x, e.y⟩
    match e.kind with
    | 1 =>
        match terminated e.key with
        | none => .error .invalid
        | some bytes =>
            match fromUtf8 bytes with
            | none => .error .invalid
            | some name => do
                let key ← keyOf name e.keyKind
                let action ← action e.action
                return .key e.press action key e.modifiers
    | 2 =>
        match e.text with
        | none => .error .invalid
        | some readable =>
            if e.textLen = 0 ∨ 16384 < e.textLen then .error .invalid
            else
              match fromUtf8 (readable.take e.textLen) with
              | none => .error .invalid
              | some text => .ok (.text text)
    | 3 => .ok (.motion p)
    | 4 => do
        let action ← action e.action
        return .button e.button action p
    | 5 => do
        let phase ← scrollPhase e.scrollPhase
        let momentum ← momentumPhase e.scrollMomentumPhase
        let inverted ← inverted e.scrollInvertedFromDevice
        let unit ← scrollUnit e.scrollUnit
        return .scroll e.x e.y unit phase momentum inverted
          ⟨e.geometryRevision, e.pointerX, e.pointerY⟩
    | _ => .error .invalid

/-- `describe`. -/
def describe : Event → FtInputEvent
  | .key press action key modifiers =>
      { kind := 1
        press
        action := actionCode action
        modifiers
        keyKind := keyKind key
        key := copyOver (List.replicate 64 0) (bytes key.name) }
  | .text t =>
      { kind := 2
        text := some (bytes t)
        textLen := (bytes t).length }
  | .motion p =>
      { kind := 3
        geometryRevision := p.revision
        x := p.x
        y := p.y }
  | .button button action p =>
      { kind := 4
        button
        action := actionCode action
        geometryRevision := p.revision
        x := p.x
        y := p.y }
  | .scroll x y unit phase momentumPhase invertedFromDevice p =>
      { kind := 5
        scrollPhase := scrollPhaseCode phase
        scrollMomentumPhase := momentumPhaseCode momentumPhase
        scrollInvertedFromDevice := invertedCode invertedFromDevice
        x
        y
        scrollUnit := scrollUnitCode unit
        geometryRevision := p.revision
        pointerX := p.x
        pointerY := p.y }

/-! ### From an event to C and back -/

/-- The bounds `event` has of its own: a name that ends in its buffer, a text that is
neither empty nor over the limit. -/
def Fits : Event → Prop
  | .key _ _ key _ => (0 : UInt8) ∉ bytes key.name ∧ (bytes key.name).length < 64
  | .text t => 0 < (bytes t).length ∧ (bytes t).length ≤ 16384
  | _ => True

/-- An accepted event is within the bounds of `event`, by those of `validate` and of the
configuration. -/
lemma fits_of_validate {config : Config} {s : State} (hnew : State.new config = .ok s)
    {mode : Mode} {e : Event} (h : validate config mode e = .ok ()) : Fits e := by
  obtain ⟨capability, hevent, -⟩ := of_bind_ok h
  cases e with
  | key press action key modifiers =>
      simp only [validateEvent] at hevent
      split_ifs at hevent with hpress hrepeat hname
      all_goals
        push Not at hname
        obtain ⟨-, hlen, hzero⟩ := hname
        refine ⟨fun hmem => hzero (zero_mem_bytes.mp hmem), ?_⟩
        rw [length_bytes]
        omega
  | text t =>
      have htext : config.maxTextBytes ≤ 16384 := by
        rw [State.new] at hnew
        split_ifs at hnew with hconfig
        push Not at hconfig
        exact hconfig.2.2.2.2.2.2.2.2.1
      simp only [validateEvent] at hevent
      split_ifs at hevent with hbounds
      push Not at hbounds
      obtain ⟨hempty, hlen⟩ := hbounds
      show 0 < (bytes t).length ∧ (bytes t).length ≤ 16384
      rw [length_bytes]
      refine ⟨Nat.pos_of_ne_zero fun h0 => hempty ?_, by omega⟩
      simpa using h0
  | motion p => trivial
  | button button action p => trivial
  | scroll x y unit phase momentumPhase invertedFromDevice p => trivial

/-- What `describe` writes of an event within the bounds, `event` reads as that event. -/
lemma event_describe {e : Event} (h : Fits e) : event (describe e) = .ok e := by
  cases e with
  | key press a key modifiers =>
      have hkey : terminated (copyOver (List.replicate 64 0) (bytes key.name)) =
          some (bytes key.name) := terminated_copyOver h.1 h.2
      simp only [describe, event, hkey, fromUtf8_bytes, keyOf_keyKind, action_codes.read_code]
      rfl
  | text t =>
      have hlen : ¬((bytes t).length = 0 ∨ 16384 < (bytes t).length) := by
        have := h.1
        have := h.2
        omega
      simp only [describe, event, if_neg hlen, List.take_length, fromUtf8_bytes]
      rfl
  | motion p => rfl
  | button b a p =>
      simp only [describe, event, action_codes.read_code]
      rfl
  | scroll x y unit phase momentum invertedFromDevice p =>
      simp only [describe, event, scrollPhase_codes.read_code, momentumPhase_codes.read_code,
        inverted_codes.read_code, scrollUnit_codes.read_code]
      rfl

/-! ### From C to an event and back -/

/-- Two C events agree on every field their kind uses: a key up to its terminator, a text
by its bytes. -/
def Agrees (c d : FtInputEvent) : Prop :=
  c.kind = d.kind ∧
  match c.kind with
  | 1 => c.press = d.press ∧ c.action = d.action ∧ c.keyKind = d.keyKind ∧
      c.modifiers = d.modifiers ∧ (terminated c.key).isSome ∧ terminated c.key = terminated d.key
  | 2 => c.textLen = d.textLen ∧ (c.text.map fun bytes => bytes.take c.textLen).isSome ∧
      (c.text.map fun bytes => bytes.take c.textLen) =
        d.text.map fun bytes => bytes.take d.textLen
  | 3 => c.geometryRevision = d.geometryRevision ∧ c.x = d.x ∧ c.y = d.y
  | 4 => c.button = d.button ∧ c.action = d.action ∧ c.geometryRevision = d.geometryRevision ∧
      c.x = d.x ∧ c.y = d.y
  | 5 => c.x = d.x ∧ c.y = d.y ∧ c.scrollUnit = d.scrollUnit ∧
      c.scrollPhase = d.scrollPhase ∧ c.scrollMomentumPhase = d.scrollMomentumPhase ∧
      c.scrollInvertedFromDevice = d.scrollInvertedFromDevice ∧
      c.geometryRevision = d.geometryRevision ∧ c.pointerX = d.pointerX ∧
      c.pointerY = d.pointerY
  | _ => False

/-- The scroll fields of a C event say of each kind of metadata whether it is absent, and
whether it is known to be none. -/
structure Tells (c : FtInputEvent) (phase : Option ScrollPhase) (momentum : Option MomentumPhase)
    (invertedFromDevice : Option Bool) : Prop where
  phase_absent : c.scrollPhase = 0 ↔ phase = none
  phase_none : c.scrollPhase = 1 ↔ phase = some .none
  momentum_absent : c.scrollMomentumPhase = 0 ↔ momentum = none
  momentum_none : c.scrollMomentumPhase = 1 ↔ momentum = some .none
  inverted_absent : c.scrollInvertedFromDevice = 0 ↔ invertedFromDevice = none
  inverted_false : c.scrollInvertedFromDevice = 1 ↔ invertedFromDevice = some false

lemma tells_describe (x y : F64) (unit : ScrollUnit) (phase : Option ScrollPhase)
    (momentum : Option MomentumPhase) (invertedFromDevice : Option Bool) (p : Position) :
    Tells (describe (.scroll x y unit phase momentum invertedFromDevice p)) phase momentum
      invertedFromDevice where
  phase_absent := scrollPhase_codes.code_inj phase none
  phase_none := scrollPhase_codes.code_inj phase (some .none)
  momentum_absent := momentumPhase_codes.code_inj momentum none
  momentum_none := momentumPhase_codes.code_inj momentum (some .none)
  inverted_absent := inverted_codes.code_inj invertedFromDevice none
  inverted_false := inverted_codes.code_inj invertedFromDevice (some false)

/-- The event that is read is described by the fields it was read from. -/
lemma agrees_of_event {c : FtInputEvent} {e : Event} (h : event c = .ok e) :
    Agrees c (describe e) := by
  rw [event] at h
  split at h
  case isTrue => nomatch h
  dsimp only at h
  split at h
  case h_1 hkind =>
    split at h
    case h_1 => nomatch h
    case h_2 bs hbs =>
      split at h
      case h_1 => nomatch h
      case h_2 name hname =>
        obtain ⟨key, hkey, h⟩ := of_bind_ok h
        obtain ⟨a, ha, h⟩ := of_bind_ok h
        obtain rfl := Except.ok.inj h
        obtain ⟨rfl, hkeyKind⟩ := keyOf_eq_ok hkey
        obtain ⟨hzero, hlen⟩ := terminated_eq_some hbs
        have hcopy : terminated (copyOver (List.replicate 64 0) (bytes key.name)) = some bs := by
          rw [bytes_of_fromUtf8 hname]
          exact terminated_copyOver hzero (c.key_length ▸ hlen)
        refine ⟨hkind, ?_⟩
        rw [hkind]
        exact ⟨rfl, (action_codes.code_read ha).symm, hkeyKind.symm, rfl, by rw [hbs]; rfl,
          hbs.trans hcopy.symm⟩
  case h_2 hkind =>
    split at h
    case h_1 => nomatch h
    case h_2 readable htext =>
      split at h
      case isTrue => nomatch h
      split at h
      case h_1 => nomatch h
      case h_2 t ht =>
        obtain rfl := Except.ok.inj h
        have hbytes := bytes_of_fromUtf8 ht
        have hlen : (bytes t).length = c.textLen := by
          rw [hbytes, List.length_take, Nat.min_eq_left (c.text_readable _ htext)]
        refine ⟨hkind, ?_⟩
        rw [hkind]
        refine ⟨hlen.symm, by rw [htext]; rfl, ?_⟩
        rw [htext]
        show some (readable.take c.textLen) = some ((bytes t).take (bytes t).length)
        rw [List.take_length, hbytes]
  case h_3 hkind =>
    obtain rfl := Except.ok.inj h
    refine ⟨hkind, ?_⟩
    rw [hkind]
    exact ⟨rfl, rfl, rfl⟩
  case h_4 hkind =>
    obtain ⟨a, ha, h⟩ := of_bind_ok h
    obtain rfl := Except.ok.inj h
    refine ⟨hkind, ?_⟩
    rw [hkind]
    exact ⟨rfl, (action_codes.code_read ha).symm, rfl, rfl, rfl⟩
  case h_5 hkind =>
    obtain ⟨phase, hphase, h⟩ := of_bind_ok h
    obtain ⟨momentum, hmomentum, h⟩ := of_bind_ok h
    obtain ⟨invertedFromDevice, hinverted, h⟩ := of_bind_ok h
    obtain ⟨unit, hunit, h⟩ := of_bind_ok h
    obtain rfl := Except.ok.inj h
    refine ⟨hkind, ?_⟩
    rw [hkind]
    exact ⟨rfl, rfl, (scrollUnit_codes.code_read hunit).symm,
      (scrollPhase_codes.code_read hphase).symm, (momentumPhase_codes.code_read hmomentum).symm,
      (inverted_codes.code_read hinverted).symm, rfl, rfl, rfl⟩
  case h_6 => nomatch h

/-- The scroll fields tell the same of an event that is read from them. -/
lemma tells_of_event {c : FtInputEvent} {x y : F64} {unit : ScrollUnit}
    {phase : Option ScrollPhase} {momentum : Option MomentumPhase}
    {invertedFromDevice : Option Bool} {p : Position}
    (h : event c = .ok (.scroll x y unit phase momentum invertedFromDevice p)) :
    Tells c phase momentum invertedFromDevice := by
  obtain ⟨hkind, hfields⟩ := agrees_of_event h
  have hkind : c.kind = 5 := hkind
  rw [hkind] at hfields
  obtain ⟨-, -, -, hphase, hmomentum, hinverted, -, -, -⟩ := hfields
  have ht := tells_describe x y unit phase momentum invertedFromDevice p
  exact
    { phase_absent := by rw [hphase]; exact ht.phase_absent
      phase_none := by rw [hphase]; exact ht.phase_none
      momentum_absent := by rw [hmomentum]; exact ht.momentum_absent
      momentum_none := by rw [hmomentum]; exact ht.momentum_none
      inverted_absent := by rw [hinverted]; exact ht.inverted_absent
      inverted_false := by rw [hinverted]; exact ht.inverted_false }

/-- **Events go through C unchanged.** Under every accepted configuration and in every
mode, an accepted event is read back from its description as it was; a C event that is
read, accepted or not, agrees with the description of what was read on every field its
kind uses; and both ways the scroll fields keep apart what is absent, what is known to be
none and what is present. -/
theorem events_round_trip {config : Config} {s : State} (hnew : State.new config = .ok s)
    (mode : Mode) :
    (∀ e, validate config mode e = .ok () → event (describe e) = .ok e) ∧
    (∀ c e, event c = .ok e → Agrees c (describe e)) ∧
    (∀ x y unit phase momentum invertedFromDevice p,
      Tells (describe (.scroll x y unit phase momentum invertedFromDevice p)) phase momentum
        invertedFromDevice) ∧
    (∀ c x y unit phase momentum invertedFromDevice p,
      event c = .ok (.scroll x y unit phase momentum invertedFromDevice p) →
        Tells c phase momentum invertedFromDevice) := by
  refine ⟨fun e he => event_describe (fits_of_validate hnew he), fun c e hc => agrees_of_event hc,
    tells_describe, ?_⟩
  intro c x y unit phase momentum invertedFromDevice p hc
  exact tells_of_event hc

theorem events_round_trip_default :
    event (describe (.key 7 .down (.logical "é") 1)) = .ok (.key 7 .down (.logical "é") 1) ∧
      event (describe (.text "a\x00b")) = .ok (.text "a\x00b") := by
  have hnew : State.new Config.default = .ok { config := Config.default } := by rfl
  have hround := (events_round_trip hnew .cooperative).1
  exact ⟨hround _ (by decide +kernel), hround _ (by decide +kernel)⟩

end Jackstay.Input.Ffi
