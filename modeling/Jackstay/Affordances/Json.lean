import Jackstay.Input.Model
import Jackstay.Library.OrderedMap

/-!
`serde_json` as far as the affordances use it: values, how they are looked into,
and how numbers, strings and maps go into them and come out again.

A number is an unsigned or a negative 64-bit integer or a finite `f64`, as in
`serde_json::Number`. The members of an object are listed in the order of their
names; what is said here holds of any list of members.

* `Value.index`, `Value.get`, `Value.asF64`, …: looking into a value;
* `Value.set`: replacing a member of an object, with `get_set`;
* `Value.ofF64`, `asF64_ofF64`: an `f64` in a value, null when it is not finite;
* `Value.toFlags`, `Value.ofFlags`: a map of flags out of a value and into one, with
  `toFlags_ofFlags`: it comes out as it went in;
* `Value.print`: the compact text of a value.
-/

namespace Jackstay.Input.F64

/-! ### Arithmetic -/

/-- The value of a finite `f64`, in units of `2 ^ -1074`. -/
def scaled (x : F64) : ℤ :=
  let fraction : ℕ := x.magnitude % 2 ^ 52
  let units : ℕ := if x.exponent = 0 then fraction else (2 ^ 52 + fraction) * 2 ^ (x.exponent - 1)
  if x.bits.toNat < 2 ^ 63 then (units : ℤ) else -(units : ℤ)

/-- The bits without sign of the `f64` nearest to a number of such units, ties to even; a carry
out of the fraction goes into the exponent, and out of the largest exponent to infinity. -/
def nearest (units : ℕ) : ℕ :=
  if units < 2 ^ 53 then units
  else
    let shift := units.log2 - 52
    let quotient := units / 2 ^ shift
    let rest := units % 2 ^ shift
    let up := 2 ^ shift < 2 * rest ∨ 2 ^ shift = 2 * rest ∧ quotient % 2 = 1
    min (2047 * 2 ^ 52) (shift * 2 ^ 52 + quotient + if up then 1 else 0)

/-- The `f64` nearest to a number of such units. -/
def ofScaled (units : ℤ) : F64 :=
  ⟨.ofNat (nearest units.natAbs + if units < 0 then 2 ^ 63 else 0)⟩

/-- An integer `as f64`. -/
def ofInt (n : ℤ) : F64 := ofScaled (n * 2 ^ 1074)

/-- `x - y`, of finite values. -/
def sub (x y : F64) : F64 := ofScaled (x.scaled - y.scaled)

/-- `f64::max`, of values that are not NaN. -/
def max (x y : F64) : F64 := if x.lt y then y else x

example : sub ⟨0x4024000000000000⟩ ⟨0x4008000000000000⟩ = ⟨0x401C000000000000⟩ := by
  decide +kernel

end Jackstay.Input.F64

namespace Jackstay.Affordances

open Input (F64)

/-! ### Values -/

/-- `serde_json::Number`. -/
inductive Number where
  | posInt (n : UInt64)
  /-- The negative integer `-(n + 1)`. -/
  | negInt (n : Fin (2 ^ 63))
  | float (x : F64) (finite : x.isFinite = true)
  deriving DecidableEq

/-- `serde_json::Value`. -/
inductive Value where
  | null
  | bool (b : Bool)
  | number (n : Number)
  | string (text : String)
  | array (items : List Value)
  | object (members : List (String × Value))

namespace Value

/-- `Value::from(f64)`. -/
def ofF64 (x : F64) : Value :=
  if h : x.isFinite = true then number (.float x h) else null

/-- An `Option` in a value. -/
def ofOption {α : Type} (f : α → Value) : Option α → Value
  | none => null
  | some a => f a

/-- `Value::is_null`. -/
def isNull : Value → Bool
  | null => true
  | _ => false

/-- `Value::is_object`. -/
def isObject : Value → Bool
  | object _ => true
  | _ => false

/-- `Value::as_object`, and `as_object_mut`. -/
def asObject : Value → Option (List (String × Value))
  | object members => some members
  | _ => none

/-- `Value::as_str`. -/
def asStr : Value → Option String
  | string text => some text
  | _ => none

/-- `Value::as_bool`. -/
def asBool : Value → Option Bool
  | bool b => some b
  | _ => none

/-- `Value::as_u64`. -/
def asU64 : Value → Option UInt64
  | number (.posInt n) => some n
  | _ => none

/-- `Value::as_f64`. -/
def asF64 : Value → Option F64
  | number (.posInt n) => some (F64.ofInt n.toNat)
  | number (.negInt n) => some (F64.ofInt (-(n.val + 1 : ℤ)))
  | number (.float x _) => some x
  | _ => none

/-- `Value::get`, by the name of a member. -/
def get (v : Value) (name : String) : Option Value :=
  match v with
  | object members => members.lookup name
  | _ => none

/-- `v[name]`: null for what is not there. -/
def index (v : Value) (name : String) : Value := (v.get name).getD null

/-- `v[name] = value`, of a member that is there. -/
def set (v : Value) (name : String) (value : Value) : Value :=
  match v with
  | object members => object (members.map fun m => if m.1 = name then (m.1, value) else m)
  | v => v

/-! ### Looking into values -/

@[simp] lemma isObject_object (members : List (String × Value)) :
    (object members).isObject = true := rfl

lemma lookup_set (members : List (String × Value)) (name other : String) (value : Value) :
    (members.map fun m => if m.1 = name then (m.1, value) else m).lookup other =
      if other = name then (members.lookup other).map fun _ => value
      else members.lookup other := by
  induction members with
  | nil => simp
  | cons m members ih =>
      rw [List.map_cons, List.lookup_cons, List.lookup_cons, ih]
      by_cases hm : m.1 = name
      · rw [if_pos hm]
        by_cases ho : other = m.1
        · simp [ho, hm]
        · have hb : (other == m.1) = false := by simpa using ho
          simp only [hb]
      · rw [if_neg hm]
        by_cases ho : other = m.1
        · have hne : other ≠ name := fun h => hm (ho.symm.trans h)
          simp [ho, hm]
        · have hb : (other == m.1) = false := by simpa using ho
          simp only [hb]

/-- Only the member that is replaced changes. -/
lemma get_set (v : Value) (name other : String) (value : Value) :
    (v.set name value).get other =
      if other = name then (v.get other).map fun _ => value else v.get other := by
  cases v with
  | object members => exact lookup_set members name other value
  | _ => simp [set, get]

lemma index_set_of_ne (v : Value) {name other : String} (value : Value) (h : other ≠ name) :
    (v.set name value).index other = v.index other := by
  rw [index, get_set, if_neg h, index]

lemma index_set_self {v : Value} {name : String} (value : Value) (h : (v.get name).isSome) :
    (v.set name value).index name = value := by
  obtain ⟨old, hold⟩ := Option.isSome_iff_exists.mp h
  rw [index, get_set, if_pos rfl, hold]
  rfl

/-- A finite `f64` comes out of a value as it went in. -/
lemma asF64_ofF64 {x : F64} (h : x.isFinite = true) : (ofF64 x).asF64 = some x := by
  rw [ofF64, dif_pos h]
  rfl

lemma isNull_ofF64 {x : F64} (h : x.isFinite = true) : (ofF64 x).isNull = false := by
  rw [ofF64, dif_pos h]
  rfl

/-! ### Maps of flags -/

/-- The entry of a map of flags, out of a member. -/
def toFlag (m : String × Value) : Option (String × Bool) := m.2.asBool.map fun b => (m.1, b)

/-- `BTreeMap<String, bool>` out of the members of an object: every one has to be a flag. -/
def toFlags (members : List (String × Value)) : Option (OrderedMap String Bool) :=
  (members.mapM toFlag).map OrderedMap.collect

/-- `BTreeMap<String, bool>` as the members of an object. -/
def ofFlags (flags : OrderedMap String Bool) : List (String × Value) :=
  flags.entries.map fun e => (e.1, bool e.2)

/-- **A map of flags comes out of a value as it went in.** -/
lemma toFlags_ofFlags (flags : OrderedMap String Bool) : toFlags (ofFlags flags) = some flags := by
  have hentries : ∀ es : List (String × Bool),
      (es.map fun e => ((e.1, bool e.2) : String × Value)).mapM toFlag = some es := by
    intro es
    induction es with
    | nil => rfl
    | cons e es ih =>
        rw [List.map_cons, List.mapM_cons, ih]
        rfl
  rw [toFlags, ofFlags, hentries, Option.map_some, OrderedMap.collect_entries]

/-- The names of the flags are names of members. -/
lemma mem_of_toFlags {members : List (String × Value)} {flags : OrderedMap String Bool}
    (h : toFlags members = some flags) {e : String × Bool} (he : e ∈ flags.entries) :
    (e.1, bool e.2) ∈ members := by
  obtain ⟨es, hes, rfl⟩ := Option.map_eq_some_iff.mp h
  have hmem : e ∈ es := OrderedMap.mem_collect he
  clear he h
  induction members generalizing es with
  | nil =>
      rw [List.mapM_nil] at hes
      obtain rfl := Option.some.inj hes
      cases hmem
  | cons m members ih =>
      rw [List.mapM_cons] at hes
      obtain ⟨first, hfirst, hes⟩ := Option.bind_eq_some_iff.mp hes
      obtain ⟨rest, hrest, hes⟩ := Option.bind_eq_some_iff.mp hes
      obtain rfl := Option.some.inj hes
      rcases List.mem_cons.mp hmem with rfl | htail
      · obtain ⟨b, hb, rfl⟩ := Option.map_eq_some_iff.mp hfirst
        have hm : m = (m.1, bool b) := by
          cases m with
          | mk name v =>
              cases v with
              | bool b' =>
                  obtain rfl := Option.some.inj hb
                  rfl
              | _ => cases hb
        rw [hm]
        exact List.mem_cons_self
      · exact List.mem_cons_of_mem m (ih rest hrest htail)

end Value

/-! ### Texts -/

/-- A character of a JSON string. -/
def escape (c : Char) : List Char :=
  let backslash := Char.ofNat 92
  if c.toNat = 34 ∨ c.toNat = 92 then [backslash, c]
  else if c.toNat = 8 then [backslash, 'b']
  else if c.toNat = 9 then [backslash, 't']
  else if c.toNat = 10 then [backslash, 'n']
  else if c.toNat = 12 then [backslash, 'f']
  else if c.toNat = 13 then [backslash, 'r']
  else if c.toNat < 32 then
    [backslash, 'u', '0', '0', Nat.digitChar (c.toNat / 16), Nat.digitChar (c.toNat % 16)]
  else [c]

/-- A JSON string. -/
def quoted (text : String) : List Char :=
  Char.ofNat 34 :: (text.toList.flatMap escape ++ [Char.ofNat 34])

/-- The text of a number; of an `f64` it is given. -/
def Number.print (float : F64 → List Char) : Number → List Char
  | .posInt n => Nat.toDigits 10 n.toNat
  | .negInt n => '-' :: Nat.toDigits 10 (n.val + 1)
  | .float x _ => float x

mutual

/-- The compact text of a value. -/
def Value.print (float : F64 → List Char) : Value → List Char
  | .null => ['n', 'u', 'l', 'l']
  | .bool true => ['t', 'r', 'u', 'e']
  | .bool false => ['f', 'a', 'l', 's', 'e']
  | .number n => n.print float
  | .string text => quoted text
  | .array items => '[' :: ([','].intercalate (Value.printItems float items) ++ [']'])
  | .object members => Char.ofNat 123 ::
      ([','].intercalate (Value.printMembers float members) ++ [Char.ofNat 125])
termination_by structural v => v

/-- The texts of the items of an array. -/
def Value.printItems (float : F64 → List Char) : List Value → List (List Char)
  | [] => []
  | v :: vs => v.print float :: Value.printItems float vs
termination_by structural vs => vs

/-- The texts of the members of an object. -/
def Value.printMembers (float : F64 → List Char) : List (String × Value) → List (List Char)
  | [] => []
  | m :: ms => Value.printMember float m :: Value.printMembers float ms
termination_by structural ms => ms

/-- The text of a member. -/
def Value.printMember (float : F64 → List Char) : String × Value → List Char
  | (name, v) => quoted name ++ ':' :: v.print float
termination_by structural m => m

end

lemma Value.print_ne_nil {float : F64 → List Char} (h : ∀ x, float x ≠ []) (v : Value) :
    v.print float ≠ [] := by
  cases v with
  | null => exact nofun
  | bool b => cases b <;> exact nofun
  | number n =>
      cases n with
      | posInt n => exact Nat.toDigits_ne_nil
      | negInt n => exact nofun
      | float x hx => exact h x
  | string text => exact nofun
  | array items => exact nofun
  | object members => exact nofun

end Jackstay.Affordances
