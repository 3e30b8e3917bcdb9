import Jackstay.Affordances.Conforming

/-!
Verbs are gated by what the producer advertises.

* `lastPublished`: the snapshot of a domain that is in force, by what has been published;
* `Channel.Shows`: the state of a producer holds it, for every domain of its own;
* `Verb.Satisfies`, `Verb.IllTyped`: the schema of a body, and what is not even of its types;
  `validateVerb_iff` reads `validate_verb` off them;
* `decode_verb`: when `decode` delivers a verb;
* `verbs_gated`: **a verb is delivered only as advertised**, and what is not advertised never
  closes the channel.
-/

namespace Jackstay.Affordances

open Framing Input Transition

/-! ### What is advertised -/

/-- The snapshot that a domain has after one more has been published. -/
def advertise (d : Domain) (current : Option Snapshot) (v : Snapshot) : Option Snapshot :=
  if v.domain = d then
    match v with
    | .withdraw _ => none
    | v => some v
  else current

/-- The last snapshot of a domain to be published, unless it has been withdrawn. -/
def lastPublished (published : List Snapshot) (d : Domain) : Option Snapshot :=
  published.foldl (advertise d) none

lemma lastPublished_append (published : List Snapshot) (v : Snapshot) (d : Domain) :
    lastPublished (published ++ [v]) d = advertise d (lastPublished published d) v := by
  rw [lastPublished, List.foldl_append]
  rfl

/-- The capabilities of a snapshot. -/
def Snapshot.capabilities : Snapshot → Option (OrderedMap String Bool)
  | media m => some m.capabilities
  | navigation n => some n.capabilities
  | scroll s => some s.capabilities
  | _ => none

/-- A snapshot maps the name of a verb to true. -/
def Snapshot.Offers (v : Snapshot) (name : String) : Prop :=
  ∃ capabilities, v.capabilities = some capabilities ∧ capabilities.get name = some true

lemma lookup_ofFlags (es : List (String × Bool)) (name : String) :
    (es.map fun e => ((e.1, .bool e.2) : String × Value)).lookup name =
      (es.lookup name).map Value.bool := by
  induction es with
  | nil => rfl
  | cons e es ih =>
      rw [List.map_cons, List.lookup_cons, List.lookup_cons, ih]
      cases name == e.1 <;> rfl

/-- The gate of `decode` asks whether the snapshot offers the verb. -/
lemma offers_iff (v : Snapshot) (name : String) :
    ((v.body.index "capabilities").index name).asBool = some true ↔ v.Offers name := by
  have hflags : ∀ flags : OrderedMap String Bool,
      ((Value.object (Value.ofFlags flags)).index name).asBool = flags.get name := by
    intro flags
    rw [Value.index, Value.get, Value.ofFlags, lookup_ofFlags, OrderedMap.get]
    cases flags.entries.lookup name <;> rfl
  have hnone : (Value.null.index name).asBool = none := rfl
  cases v with
  | media m =>
      show ((Value.object (Value.ofFlags m.capabilities)).index name).asBool = _ ↔ _
      rw [hflags]
      refine ⟨fun h => ⟨_, rfl, h⟩, ?_⟩
      rintro ⟨_, hcaps, h⟩
      exact (Option.some.inj hcaps).symm ▸ h
  | navigation n =>
      show ((Value.object (Value.ofFlags n.capabilities)).index name).asBool = _ ↔ _
      rw [hflags]
      refine ⟨fun h => ⟨_, rfl, h⟩, ?_⟩
      rintro ⟨_, hcaps, h⟩
      exact (Option.some.inj hcaps).symm ▸ h
  | scroll s =>
      show ((Value.object (Value.ofFlags s.capabilities)).index name).asBool = _ ↔ _
      rw [hflags]
      refine ⟨fun h => ⟨_, rfl, h⟩, ?_⟩
      rintro ⟨_, hcaps, h⟩
      exact (Option.some.inj hcaps).symm ▸ h
  | cursor shape | window w | presentation p | withdraw d =>
      show (Value.null.index name).asBool = _ ↔ _
      rw [hnone]
      constructor
      · intro h
        cases h
      · rintro ⟨_, hcaps, _⟩
        cases hcaps

/-! ### The schema of a body -/

/-- A value that is a finite number. -/
def IsNumber (v : Value) : Prop := ∃ x, v.asF64 = some x ∧ x.isFinite = true

/-- A value that is a string. -/
def IsText (v : Value) : Prop := ∃ text, v.asStr = some text

/-- The axis of a scroll verb is one of the two. -/
def Verb.OnAxis (v : Verb) : Prop :=
  (v.body.index "axis").asStr = some "x" ∨ (v.body.index "axis").asStr = some "y"

/-- The body of a verb has the types and the values of its schema. -/
def Verb.Satisfies (v : Verb) : Prop :=
  v.body.isObject = true ∧
    match v.domain with
    | .media =>
        (v.name = "seek_absolute" → ∃ x, (v.body.index "position").asF64 = some x ∧ IsLength x) ∧
          (v.name = "seek_relative" → IsNumber (v.body.index "offset"))
    | .navigation => v.name = "load" → IsText (v.body.index "url")
    | .scroll =>
        v.OnAxis ∧ (v.name = "set_position" → IsNumber (v.body.index "position")) ∧
          (v.name ≠ "set_position" →
            ((v.body.index "step").asStr = some "small" ∨
              (v.body.index "step").asStr = some "large") ∧
            ((v.body.index "direction").asStr = some "decrement" ∨
              (v.body.index "direction").asStr = some "increment"))
    | _ => True

/-- The body of a verb is not of the types of its schema. The other members of a scroll
verb are looked at only for an axis that is known. -/
def Verb.IllTyped (v : Verb) : Prop :=
  v.body.isObject = false ∨
    match v.domain with
    | .media =>
        v.name = "seek_absolute" ∧ (¬ ∃ x, (v.body.index "position").asF64 = some x ∧ IsLength x) ∨
          v.name = "seek_relative" ∧ ¬ IsNumber (v.body.index "offset")
    | .navigation => v.name = "load" ∧ ¬ IsText (v.body.index "url")
    | .scroll =>
        ¬ IsText (v.body.index "axis") ∨ v.OnAxis ∧
          (v.name = "set_position" ∧ ¬ IsNumber (v.body.index "position") ∨
            v.name ≠ "set_position" ∧
              (¬ IsText (v.body.index "step") ∨ ¬ IsText (v.body.index "direction")))
    | _ => False

/-! ### What the checks find -/

lemma number_cases (v : Value) :
    (∃ x, number v = .ok x) ∧ IsNumber v ∨ number v = .error .invalid ∧ ¬ IsNumber v := by
  rw [number]
  cases hx : v.asF64.filter F64.isFinite with
  | none =>
      refine .inr ⟨rfl, ?_⟩
      rintro ⟨x, hx', hfinite⟩
      rw [hx', Option.filter_some, if_pos hfinite] at hx
      cases hx
  | some x =>
      obtain ⟨hx', hfinite⟩ := Option.filter_eq_some_iff.mp hx
      exact .inl ⟨⟨x, rfl⟩, x, hx', hfinite⟩

lemma text_cases (v : Value) :
    (∃ t, text v = .ok t ∧ v.asStr = some t) ∨ text v = .error .invalid ∧ ¬ IsText v := by
  rw [text]
  cases ht : v.asStr with
  | none =>
      refine .inr ⟨rfl, ?_⟩
      rintro ⟨t, ht'⟩
      rw [ht] at ht'
      cases ht'
  | some t => exact .inl ⟨t, rfl, rfl⟩

lemma nonnegative_cases (v : Value) :
    nonnegative v = .ok () ∧ (∃ x, v.asF64 = some x ∧ IsLength x) ∨
      nonnegative v = .error .invalid ∧ ¬ ∃ x, v.asF64 = some x ∧ IsLength x := by
  rw [nonnegative]
  rcases number_cases v with ⟨⟨x, hx⟩, -⟩ | ⟨herror, hnot⟩
  · obtain ⟨hasF64, hfinite⟩ := number_ok hx
    rw [hx, bind_ok]
    by_cases hlt : x.lt .zero = true
    · refine .inr ⟨if_pos hlt, ?_⟩
      rintro ⟨y, hy, -, hnot⟩
      rw [hasF64] at hy
      obtain rfl := Option.some.inj hy
      rw [hlt] at hnot
      cases hnot
    · exact .inl ⟨if_neg hlt, x, hasF64, hfinite, Bool.eq_false_iff.mpr hlt⟩
  · rw [herror]
    refine .inr ⟨rfl, ?_⟩
    rintro ⟨x, hx, hfinite, -⟩
    exact hnot ⟨x, hx, hfinite⟩

/-- What `validate_verb` finds is what the schema says. -/
structure Verb.Validated (v : Verb) (result : Except Error Bool) : Prop where
  satisfies : result = .ok true ↔ v.Satisfies
  illTyped : (∃ e, result = .error e) ↔ v.IllTyped

namespace Verb.Validated

variable {v : Verb}

lemma of_satisfies (h : v.Satisfies) (h' : ¬ v.IllTyped) : v.Validated (.ok true) := by
  refine ⟨⟨fun _ => h, fun _ => rfl⟩, ⟨?_, fun hill => absurd hill h'⟩⟩
  rintro ⟨e, he⟩
  cases he

lemma of_illTyped (h : v.IllTyped) (h' : ¬ v.Satisfies) {e : Error} : v.Validated (.error e) := by
  refine ⟨⟨?_, fun hsat => absurd hsat h'⟩, ⟨fun _ => h, fun _ => ⟨e, rfl⟩⟩⟩
  intro he
  cases he

lemma of_neither (h : ¬ v.Satisfies) (h' : ¬ v.IllTyped) : v.Validated (.ok false) := by
  refine ⟨⟨?_, fun hsat => absurd hsat h⟩, ⟨?_, fun hill => absurd hill h'⟩⟩
  · intro he
    cases he
  · rintro ⟨e, he⟩
    cases he

end Verb.Validated

section

variable {v : Verb}

/-- A body that is not an object is ill-typed for every verb. -/
lemma validated_of_not_object (h : v.body.isObject = false) : v.Validated (validateVerb v) := by
  have hvalid : validateVerb v = .error .invalid := by
    rw [validateVerb, refuse, if_pos h]
    rfl
  rw [hvalid]
  refine .of_illTyped (.inl h) ?_
  rintro ⟨hobject, -⟩
  rw [h] at hobject
  cases hobject

lemma validated_media (hobject : v.body.isObject = true) (hd : v.domain = .media) :
    v.Validated (validateVerb v) := by
  have hnot : ¬ v.body.isObject = false := by simp [hobject]
  rw [validateVerb, refuse_of_not hnot, bind_ok, hd]
  dsimp only
  split_ifs with habsolute hrelative
  · have hne : v.name ≠ "seek_relative" := by simp [habsolute]
    rcases nonnegative_cases (v.body.index "position") with ⟨hcheck, h⟩ | ⟨hcheck, h⟩
    · rw [hcheck]
      refine .of_satisfies ⟨hobject, ?_⟩ ?_
      · simp [hd, hne, h]
      · simp [Verb.IllTyped, hobject, hd, hne, h]
    · rw [hcheck]
      refine .of_illTyped (.inr ?_) ?_
      · simp only [hd]
        exact .inl ⟨habsolute, h⟩
      · simp only [Verb.Satisfies, hd]
        exact fun hsat => h (hsat.2.1 habsolute)
  · rcases number_cases (v.body.index "offset") with ⟨⟨x, hcheck⟩, h⟩ | ⟨hcheck, h⟩
    · rw [hcheck]
      refine .of_satisfies ⟨hobject, ?_⟩ ?_
      · simp [hd, habsolute, h]
      · simp [Verb.IllTyped, hobject, hd, habsolute, h]
    · rw [hcheck]
      refine .of_illTyped (.inr ?_) ?_
      · simp only [hd]
        exact .inr ⟨hrelative, h⟩
      · simp only [Verb.Satisfies, hd]
        exact fun hsat => h (hsat.2.2 hrelative)
  · refine .of_satisfies ⟨hobject, ?_⟩ ?_
    · simp [hd, habsolute, hrelative]
    · simp [Verb.IllTyped, hobject, hd, habsolute, hrelative]

lemma validated_navigation (hobject : v.body.isObject = true) (hd : v.domain = .navigation) :
    v.Validated (validateVerb v) := by
  have hnot : ¬ v.body.isObject = false := by simp [hobject]
  rw [validateVerb, refuse_of_not hnot, bind_ok, hd]
  dsimp only
  split_ifs with hload
  · rcases text_cases (v.body.index "url") with ⟨t, hcheck, h⟩ | ⟨hcheck, h⟩
    · rw [hcheck]
      have htext : IsText (v.body.index "url") := ⟨t, h⟩
      refine .of_satisfies ⟨hobject, ?_⟩ ?_
      · simp [hd, htext]
      · simp [Verb.IllTyped, hobject, hd, htext]
    · rw [hcheck]
      refine .of_illTyped (.inr ?_) ?_
      · simp only [hd]
        exact ⟨hload, h⟩
      · simp only [Verb.Satisfies, hd]
        exact fun hsat => h (hsat.2 hload)
  · refine .of_satisfies ⟨hobject, ?_⟩ ?_
    · simp [hd, hload]
    · simp [Verb.IllTyped, hobject, hd, hload]

/-- A choice of two texts. -/
lemma contains_pair {a b t : String} : [a, b].contains t = true ↔ t = a ∨ t = b := by
  simp

lemma validated_scroll (hobject : v.body.isObject = true) (hd : v.domain = .scroll) :
    v.Validated (validateVerb v) := by
  have hnot : ¬ v.body.isObject = false := by simp [hobject]
  rw [validateVerb, refuse_of_not hnot, bind_ok, hd]
  dsimp only
  rcases text_cases (v.body.index "axis") with ⟨axis, hcheck, haxis⟩ | ⟨hcheck, hill⟩
  · rw [hcheck, bind_ok]
    have htext : IsText (v.body.index "axis") := ⟨axis, haxis⟩
    have hon : v.OnAxis ↔ ["x", "y"].contains axis = true := by
      rw [Verb.OnAxis, haxis, contains_pair, Option.some.injEq, Option.some.injEq]
    split_ifs with hunknown hset
    · have hoff : ¬ v.OnAxis := by
        rw [hon, hunknown]
        decide
      refine .of_neither ?_ ?_
      · simp only [Verb.Satisfies, hd]
        exact fun hsat => hoff hsat.2.1
      · simp [Verb.IllTyped, hobject, hd, htext, hoff]
    · have honaxis : v.OnAxis := hon.mpr ((Bool.not_eq_false _).mp hunknown)
      rcases number_cases (v.body.index "position") with ⟨⟨x, hnumber⟩, h⟩ | ⟨hnumber, h⟩
      · rw [hnumber]
        refine .of_satisfies ⟨hobject, ?_⟩ ?_
        · simp [hd, honaxis, hset, h]
        · simp [Verb.IllTyped, hobject, hd, htext, hset, h]
      · rw [hnumber]
        refine .of_illTyped (.inr ?_) ?_
        · simp only [hd]
          exact .inr ⟨honaxis, .inl ⟨hset, h⟩⟩
        · simp only [Verb.Satisfies, hd]
          exact fun hsat => h (hsat.2.2.1 hset)
    · have honaxis : v.OnAxis := hon.mpr ((Bool.not_eq_false _).mp hunknown)
      rcases text_cases (v.body.index "step") with ⟨step, hstep, hs⟩ | ⟨hstep, h⟩
      · rw [hstep, bind_ok]
        rcases text_cases (v.body.index "direction") with ⟨direction, hdir, hdi⟩ | ⟨hdir, h⟩
        · rw [hdir, bind_ok]
          have hstext : IsText (v.body.index "step") := ⟨step, hs⟩
          have hdtext : IsText (v.body.index "direction") := ⟨direction, hdi⟩
          have hwell : ¬ v.IllTyped := by
            simp [Verb.IllTyped, hobject, hd, htext, hset, hstext, hdtext]
          have hsat : v.Satisfies ↔ (["small", "large"].contains step &&
              ["decrement", "increment"].contains direction) = true := by
            rw [Bool.and_eq_true, contains_pair, contains_pair]
            simp [Verb.Satisfies, hobject, hd, honaxis, hset, hs, hdi]
          cases hvalue : ["small", "large"].contains step &&
              ["decrement", "increment"].contains direction with
          | true => exact .of_satisfies (hsat.mpr hvalue) hwell
          | false =>
              refine .of_neither (fun h => ?_) hwell
              rw [hsat, hvalue] at h
              cases h
        · rw [hdir]
          refine .of_illTyped (.inr ?_) ?_
          · simp only [hd]
            exact .inr ⟨honaxis, .inr ⟨hset, .inr h⟩⟩
          · simp only [Verb.Satisfies, hd]
            intro hsat
            rcases (hsat.2.2.2 hset).2 with hd' | hd'
            · exact h ⟨_, hd'⟩
            · exact h ⟨_, hd'⟩
      · rw [hstep]
        refine .of_illTyped (.inr ?_) ?_
        · simp only [hd]
          exact .inr ⟨honaxis, .inr ⟨hset, .inl h⟩⟩
        · simp only [Verb.Satisfies, hd]
          intro hsat
          rcases (hsat.2.2.2 hset).1 with hs' | hs'
          · exact h ⟨_, hs'⟩
          · exact h ⟨_, hs'⟩
  · rw [hcheck]
    refine .of_illTyped (.inr ?_) ?_
    · simp only [hd]
      exact .inl hill
    · simp only [Verb.Satisfies, hd]
      intro hsat
      rcases hsat.2.1 with h | h
      · exact hill ⟨_, h⟩
      · exact hill ⟨_, h⟩

/-- **`validate_verb` finds what the schema says.** -/
lemma validated_validateVerb (v : Verb) : v.Validated (validateVerb v) := by
  by_cases hobject : v.body.isObject = true
  · cases hd : v.domain with
    | media => exact validated_media hobject hd
    | navigation => exact validated_navigation hobject hd
    | scroll => exact validated_scroll hobject hd
    | cursor | window | presentation =>
        have hnot : ¬ v.body.isObject = false := by simp [hobject]
        rw [validateVerb, refuse_of_not hnot, bind_ok, hd]
        exact .of_satisfies ⟨hobject, by simp [hd]⟩ (by simp [Verb.IllTyped, hobject, hd])
  · exact validated_of_not_object (Bool.eq_false_iff.mpr hobject)

end

/-! ### What `decode` makes of a message -/

/-- The axis that a scroll verb names is scrollable. -/
def Snapshot.Scrolls (snapshot : Snapshot) (v : Verb) : Prop :=
  ∀ s, snapshot = .scroll s →
    ((v.body.index "axis").asStr = some "x" → s.x.scrollable = true) ∧
      ((v.body.index "axis").asStr = some "y" → s.y.scrollable = true)

/-- A message that names a verb: its envelope is that of a verb, for a domain that has verbs. -/
structure Names (message : Value) (d : Domain) (name : String) : Prop where
  object : message.isObject = true
  version : (message.get "version").bind Value.asU64 = some 1
  domain : (message.get "domain").bind Value.asStr = some d.name
  domainVersion : (message.get "domain_version").bind Value.asU64 = some 1
  kind : (message.get "kind").bind Value.asStr = some "verb"
  verb : (message.get "verb").bind Value.asStr = some name
  hasVerbs : d.hasVerbs = true

lemma Domain.name_of_parse {text : String} {d : Domain} (h : Domain.parse text = some d) :
    text = d.name := by
  rw [Domain.parse.eq_def] at h
  split at h
  case h_7 => cases h
  all_goals
    obtain rfl := Option.some.inj h
    rfl

lemma orInvalid_ok {α : Type} {o : Option α} {a : α} (h : orInvalid o = .ok a) : o = some a := by
  cases o with
  | none => cases h
  | some a' => rw [Except.ok.inj h]

/-- A verb comes from a message that names it; a snapshot that a producer receives is of the
presentation. -/
lemma decode_producer {message : Value} {s : State} {e : Event}
    (h : decode message s true = .ok (some e)) :
    (∃ w, e = .snapshot w ∧ w.domain = .presentation) ∨
      ∃ d name snapshot, Names message d name ∧ knownVerb d name = true ∧
        s.snapshot d = some snapshot ∧ decodeVerb snapshot d name message = .ok (some e) := by
  rw [decode] at h
  obtain ⟨_, hobject, h⟩ := of_bind_ok h
  obtain ⟨version, hversion, h⟩ := of_bind_ok h
  obtain ⟨text, htext, h⟩ := of_bind_ok h
  obtain ⟨dv, hdv, h⟩ := of_bind_ok h
  obtain ⟨kind, hkind, h⟩ := of_bind_ok h
  obtain ⟨_, hone, h⟩ := of_bind_ok h
  have hversion' : version = 1 := not_not.mp (not_of_refuse hone)
  cases hparse : Domain.parse text with
  | none =>
      rw [hparse] at h
      cases h
  | some d =>
      simp only [hparse] at h
      split_ifs at h with hdv' hsnapshot hverb
      · cases h
      · obtain ⟨_, hdirection, h⟩ := of_bind_ok h
        obtain ⟨body, -, h⟩ := of_bind_ok h
        obtain ⟨w, hw, h⟩ := of_bind_ok h
        obtain rfl := Option.some.inj (Except.ok.inj h)
        obtain ⟨-, hdomain, -⟩ := normal_of_parse hw
        have heq := not_not.mp (not_of_refuse hdirection)
        exact .inl ⟨w, rfl, hdomain.trans (of_decide_eq_true heq)⟩
      · obtain ⟨_, hdirection, h⟩ := of_bind_ok h
        obtain ⟨name, hname, h⟩ := of_bind_ok h
        obtain ⟨-, hverbs⟩ := not_or.mp (not_of_refuse hdirection)
        split_ifs at h with hknown
        · cases h
        · cases hsnap : s.snapshot d with
          | none =>
              rw [hsnap] at h
              cases h
          | some snapshot =>
              simp only [hsnap] at h
              refine .inr ⟨d, name, snapshot, ⟨?_, ?_, ?_, ?_, ?_, orInvalid_ok hname, ?_⟩, ?_,
                hsnap, h⟩
              · exact (Bool.not_eq_false _).mp (not_of_refuse hobject)
              · rw [orInvalid_ok hversion, hversion']
              · rw [orInvalid_ok htext, Domain.name_of_parse hparse]
              · rw [orInvalid_ok hdv, not_not.mp hdv']
              · rw [orInvalid_ok hkind, hverb]
              · exact (Bool.not_eq_false _).mp hverbs
              · exact (Bool.not_eq_false _).mp hknown
      · cases h

/-- A verb that is delivered is offered, satisfies its schema, and names an axis that scrolls. -/
lemma decodeVerb_some {snapshot : Snapshot} {d : Domain} {name : String} {o : Value} {e : Event}
    (h : decodeVerb snapshot d name o = .ok (some e)) :
    ∃ body, o.get "body" = some body ∧ e = .verb ⟨d, name, body⟩ ∧ snapshot.Offers name ∧
      Verb.Satisfies ⟨d, name, body⟩ ∧ snapshot.Scrolls ⟨d, name, body⟩ := by
  have hgate : ¬ ((snapshot.body.index "capabilities").index name).asBool ≠ some true := by
    intro hgate
    rw [decodeVerb, if_pos hgate] at h
    cases h
  rw [decodeVerb, if_neg hgate] at h
  obtain ⟨body, hbody, h⟩ := of_bind_ok h
  obtain ⟨valid, hvalid, h⟩ := of_bind_ok h
  have hoffers : snapshot.Offers name := (offers_iff snapshot name).mp (not_not.mp hgate)
  have hfalse : ¬ valid = false := by
    rintro rfl
    cases h
  rw [if_neg hfalse] at h
  obtain rfl : valid = true := (Bool.not_eq_false _).mp hfalse
  have hsat := (validated_validateVerb ⟨d, name, body⟩).satisfies.mp hvalid
  refine ⟨body, orInvalid_ok hbody, ?_, hoffers, hsat, ?_⟩
  · cases snapshot with
    | scroll s =>
        simp only at h
        split_ifs at h
        · cases h
        · exact (Option.some.inj (Except.ok.inj h)).symm
    | _ => exact (Option.some.inj (Except.ok.inj h)).symm
  · rintro s rfl
    simp only at h
    split_ifs at h with haxis
    · cases h
    obtain ⟨hx, hy⟩ := not_or.mp haxis
    exact ⟨fun hax => (Bool.not_eq_false _).mp (not_and.mp hx hax),
      fun hay => (Bool.not_eq_false _).mp (not_and.mp hy hay)⟩

lemma Domain.index_inj {d d' : Domain} (h : d.index = d'.index) : d = d' := by
  cases d <;> cases d' <;> first | rfl | cases h

/-- Storing a snapshot advertises it. -/
lemma State.snapshot_advertise (s : State) (v : Snapshot) (d : Domain) :
    (s.store v).snapshot d = advertise d (s.snapshot d) v := by
  rw [advertise.eq_def]
  by_cases hd : v.domain = d
  · rw [if_pos hd, ← hd]
    cases v with
    | withdraw d' => exact s.snapshot_withdraw d'
    | _ => exact s.snapshot_store nofun
  · have hindex : ¬ d.index = v.domain.index := fun h => hd (Domain.index_inj h).symm
    rw [if_neg hd, State.snapshot, State.snapshot]
    cases v with
    | withdraw d' => exact (BTreeMap.get_remove _ _ _).trans (if_neg hindex)
    | _ => rw [State.store.eq_def]; exact (BTreeMap.get_insert _ _ _ _).trans (if_neg hindex)

lemma State.alive_store (s : State) (v : Snapshot) : (s.store v).alive = s.alive := by
  cases v <;> rfl

namespace Channel

variable {json : JsonText} {c c' : Channel}

/-- The state of a producer holds what it has published, until the channel has ended. -/
structure Shows (c : Channel) : Prop where
  producer : c.producer = true
  alive : c.pc ≠ .ended → c.state.alive = true
  shown : c.pc ≠ .ended → ∀ d, d ≠ .presentation →
    c.state.snapshot d = lastPublished c.published d

lemma Shows.congr (h : c.Shows) (hproducer : c'.producer = c.producer)
    (halive : c'.state.alive = c.state.alive) (hshots : c'.state.snapshots = c.state.snapshots)
    (hpublished : c'.published = c.published) (hpc : c'.pc ≠ .ended → c.pc ≠ .ended) :
    c'.Shows := by
  refine ⟨hproducer.trans h.producer, fun hc => halive.trans (h.alive (hpc hc)), fun hc d hd => ?_⟩
  rw [State.snapshot, hshots, hpublished]
  exact h.shown (hpc hc) d hd

lemma Shows.enqueueLocked (h : c.Shows) (json : JsonText) (v : Value) :
    (c.enqueueLocked json v).1.Shows := by
  rcases enqueueLocked_cases json c v with ⟨e, stop, hfail⟩ | ⟨hdone, -⟩
  · rw [hfail]
    exact h.congr rfl rfl rfl rfl id
  · rw [hdone]
    exact h.congr rfl rfl rfl rfl id

lemma enqueueLocked_published (json : JsonText) (c : Channel) (v : Value) :
    (c.enqueueLocked json v).1.published = c.published := by
  rcases enqueueLocked_cases json c v with ⟨e, stop, hfail⟩ | ⟨hdone, -⟩
  · rw [hfail]
  · rw [hdone]

lemma Shows.publish (h : c.Shows) (v : Snapshot) : (c.publish json v).1.Shows := by
  rcases publish_cases json c v with ⟨e, stop, hfail⟩ | ⟨w, -, -, -, hdone⟩
  · rw [hfail]
    exact h.congr rfl rfl rfl rfl id
  · rw [hdone]
    have hq := h.enqueueLocked json w.wire
    refine ⟨hq.producer, fun hpc => ?_, fun hpc d hd => ?_⟩
    · exact (State.alive_store _ w).trans (hq.alive hpc)
    · show ((c.enqueueLocked json w.wire).1.state.store w).snapshot d =
        lastPublished (c.published ++ [w]) d
      rw [State.snapshot_advertise, lastPublished_append, hq.shown hpc d hd,
        enqueueLocked_published]

/-- What a message that has been received does to a producer. -/
lemma deliverStep_cases (h : c.producer = true) (json : JsonText) (message : Value) (left : ℕ) :
    (∃ e, decode message c.state true = .error e) ∧
        c.deliverStep json message left = { c with pc := .ending } ∨
      decode message c.state true = .ok none ∧
        c.deliverStep json message left = { c with pc := .receiving left } ∨
      ∃ e, decode message c.state true = .ok (some e) ∧
        (c.deliverStep json message left = { c with pc := .ending } ∨
          (c.deliverStep json message left).published = c.published ∧
          (c.deliverStep json message left).producer = c.producer ∧
          (c.deliverStep json message left).pc = .receiving left ∧
          (c.deliverStep json message left).state.alive = c.state.alive ∧
          (c.deliverStep json message left).state.events = c.state.events ++ [e] ∧
          ∀ d, d ≠ .presentation →
            (c.deliverStep json message left).state.snapshot d = c.state.snapshot d) := by
  rw [deliverStep, h]
  cases hdecode : decode message c.state true with
  | error e => exact .inl ⟨⟨e, rfl⟩, rfl⟩
  | ok result =>
      cases result with
      | none => exact .inr (.inl ⟨rfl, rfl⟩)
      | some e =>
          refine .inr (.inr ⟨e, rfl, ?_⟩)
          simp only
          split_ifs
          · exact .inl rfl
          · right
            rcases decode_producer hdecode with ⟨w, rfl, hw⟩ | ⟨d, name, snapshot, -, -, -, hverb⟩
            · refine ⟨rfl, rfl, rfl, State.alive_store c.state w, ?_, fun d hd => ?_⟩
              · cases w <;> rfl
              · show (c.state.store w).snapshot d = c.state.snapshot d
                rw [State.snapshot_advertise, advertise.eq_def, if_neg]
                rw [hw]
                exact fun heq => hd heq.symm
            · obtain ⟨body, -, rfl, -⟩ := decodeVerb_some hverb
              exact ⟨rfl, rfl, rfl, rfl, rfl, fun _ _ => rfl⟩

/-- Moving messages to the wire leaves everything else. -/
lemma queueStep_frame (json : JsonText) (c : Channel) (left : ℕ) :
    (c.queueStep json left).producer = c.producer ∧
      (c.queueStep json left).published = c.published ∧
      (c.queueStep json left).state.alive = c.state.alive ∧
      (c.queueStep json left).state.snapshots = c.state.snapshots ∧
      (c.queueStep json left).state.events = c.state.events := by
  rw [queueStep.eq_def]
  split
  · dsimp only
    split_ifs
    · exact ⟨rfl, rfl, rfl, rfl, rfl⟩
    · split
      · exact ⟨rfl, rfl, rfl, rfl, rfl⟩
      · exact ⟨rfl, rfl, rfl, rfl, rfl⟩
  · exact ⟨rfl, rfl, rfl, rfl, rfl⟩

/-- What a step of the worker does to the snapshots and the events: a message that has been
received is delivered, or the channel ends, or nothing happens to them. -/
lemma work_cases {written : Written} {read : Read} (h : c.work json written read = some c') :
    (∃ message left, c.pc = .deliver message left ∧ c' = c.deliverStep json message left) ∨
      c.pc = .ending ∧ c' = c.endStep ∨
      c'.producer = c.producer ∧ c'.published = c.published ∧ c'.state.alive = c.state.alive ∧
        c'.state.snapshots = c.state.snapshots ∧ c'.state.events = c.state.events ∧
        c.pc ≠ .ended := by
  rw [work.eq_def] at h
  cases hpc : c.pc with
  | check =>
      simp only [hpc] at h
      obtain rfl := Option.some.inj h
      exact .inr (.inr ⟨rfl, rfl, rfl, rfl, rfl, nofun⟩)
  | queueing left =>
      simp only [hpc] at h
      obtain rfl := Option.some.inj h
      obtain ⟨hproducer, hpublished, halive, hshots, hevents⟩ := queueStep_frame json c left
      exact .inr (.inr ⟨hproducer, hpublished, halive, hshots, hevents, nofun⟩)
  | flushing =>
      simp only [hpc] at h
      split at h
      all_goals
        obtain rfl := Option.some.inj h
        exact .inr (.inr ⟨rfl, rfl, rfl, rfl, rfl, nofun⟩)
  | refresh =>
      simp only [hpc] at h
      obtain rfl := Option.some.inj h
      exact .inr (.inr ⟨rfl, rfl, rfl, rfl, rfl, nofun⟩)
  | receiving left =>
      cases left with
      | zero =>
          simp only [hpc] at h
          obtain rfl := Option.some.inj h
          exact .inr (.inr ⟨rfl, rfl, rfl, rfl, rfl, nofun⟩)
      | succ left =>
          simp only [hpc] at h
          split at h
          all_goals
            obtain rfl := Option.some.inj h
            exact .inr (.inr ⟨rfl, rfl, rfl, rfl, rfl, nofun⟩)
  | deliver message left =>
      simp only [hpc] at h
      exact .inl ⟨message, left, rfl, (Option.some.inj h).symm⟩
  | ending =>
      simp only [hpc] at h
      exact .inr (.inl ⟨rfl, (Option.some.inj h).symm⟩)
  | ended =>
      simp only [hpc] at h
      cases h
  | panicked =>
      simp only [hpc] at h
      cases h

/-- Every step of a producer keeps what is shown. -/
lemma Shows.step (h : c.Shows) {l : ChannelLabel} (hstep : c.step json l = some c') : c'.Shows := by
  cases l with
  | publish v =>
      simp only [Channel.step] at hstep
      split_ifs at hstep
      obtain rfl := Option.some.inj hstep
      exact h.publish v
  | send v =>
      simp only [Channel.step, h.producer, Bool.or_true, if_true] at hstep
      cases hstep
  | poll =>
      simp only [Channel.step] at hstep
      split_ifs at hstep
      obtain rfl := Option.some.inj hstep
      rw [Channel.poll.eq_def]
      split
      · exact h
      · exact h.congr rfl rfl rfl rfl id
  | close =>
      obtain rfl := Option.some.inj hstep
      exact h.congr rfl rfl rfl rfl id
  | work written read =>
      simp only [Channel.step] at hstep
      split_ifs at hstep
      rcases work_cases hstep with ⟨message, left, hpc, rfl⟩ | ⟨-, rfl⟩ |
        ⟨hproducer, hpublished, halive, hshots, -, hpc⟩
      · have hnot : c.pc ≠ .ended := by
          rw [hpc]
          exact nofun
        rcases deliverStep_cases h.producer json message left with ⟨-, hstep⟩ | ⟨-, hstep⟩ |
          ⟨e, -, hstep | ⟨hpublished, hproducer, -, halive, -, hshots⟩⟩
        · rw [hstep]
          exact h.congr rfl rfl rfl rfl fun _ => hnot
        · rw [hstep]
          exact h.congr rfl rfl rfl rfl fun _ => hnot
        · rw [hstep]
          exact h.congr rfl rfl rfl rfl fun _ => hnot
        · refine ⟨hproducer.trans h.producer, fun _ => halive.trans (h.alive hnot),
            fun _ d hd => ?_⟩
          rw [hshots d hd, hpublished]
          exact h.shown hnot d hd
      · exact ⟨h.producer, fun hpc => absurd rfl hpc, fun hpc => absurd rfl hpc⟩
      · exact h.congr hproducer halive hshots hpublished fun _ => hpc

/-- How a step changes the events: they stay, one is polled, one is queued for a message that
has been received, or the channel ends. -/
lemma Shows.events (h : c.Shows) {l : ChannelLabel} (hstep : c.step json l = some c') :
    (∃ pre, c.state.events = pre ++ c'.state.events) ∨ c'.state.events = [.closed] ∨
      ∃ message left e, c.pc = .deliver message left ∧
        decode message c.state true = .ok (some e) ∧ c'.state.events = c.state.events ++ [e] := by
  cases l with
  | publish v =>
      simp only [Channel.step] at hstep
      split_ifs at hstep
      obtain rfl := Option.some.inj hstep
      refine .inl ⟨[], ?_⟩
      rcases publish_cases json c v with ⟨e, stop, hfail⟩ | ⟨w, -, -, -, hdone⟩
      · rw [hfail]
        rfl
      · rw [hdone]
        show c.state.events = ((c.enqueueLocked json w.wire).1.state.store w).events
        rcases enqueueLocked_cases json c w.wire with ⟨e, stop, hfail⟩ | ⟨hqueue, -⟩
        · rw [hfail]
          cases w <;> rfl
        · rw [hqueue]
          cases w <;> rfl
  | send v =>
      simp only [Channel.step, h.producer, Bool.or_true, if_true] at hstep
      cases hstep
  | poll =>
      simp only [Channel.step] at hstep
      split_ifs at hstep
      obtain rfl := Option.some.inj hstep
      left
      rw [Channel.poll.eq_def]
      split
      · exact ⟨[], rfl⟩
      · rename_i e events hevents
        exact ⟨[e], hevents⟩
  | close =>
      obtain rfl := Option.some.inj hstep
      exact .inl ⟨[], rfl⟩
  | work written read =>
      simp only [Channel.step] at hstep
      split_ifs at hstep
      rcases work_cases hstep with ⟨message, left, hpc, rfl⟩ | ⟨-, rfl⟩ | ⟨-, -, -, -, hevents, -⟩
      · rcases deliverStep_cases h.producer json message left with ⟨-, hstep⟩ | ⟨-, hstep⟩ |
          ⟨e, hdecode, hstep | ⟨-, -, -, -, hevents, -⟩⟩
        · rw [hstep]
          exact .inl ⟨[], rfl⟩
        · rw [hstep]
          exact .inl ⟨[], rfl⟩
        · rw [hstep]
          exact .inl ⟨[], rfl⟩
        · exact .inr (.inr ⟨message, left, e, hpc, hdecode, hevents⟩)
      · exact .inr (.inl rfl)
      · exact .inl ⟨[], hevents.symm⟩

/-! ### Main result -/

/-- The gate of a producer, from a state on. -/
structure Gated (json : JsonText) (c : Channel) : Prop where
  /-- A verb comes among the events only at their end, one at a time. -/
  queued : ∀ l c' v, c.step json l = some c' → .verb v ∈ c'.state.events →
    .verb v ∈ c.state.events ∨ c'.state.events = c.state.events ++ [.verb v]
  /-- A verb that is queued is one that the last snapshot published of its domain offers; its body
  satisfies the schema, and the axis that it names is scrollable. -/
  offered : ∀ l c' v, c.step json l = some c' → c'.state.events = c.state.events ++ [.verb v] →
    knownVerb v.domain v.name = true ∧ v.Satisfies ∧
      ∃ snapshot, lastPublished c.published v.domain = some snapshot ∧ snapshot.Offers v.name ∧
        snapshot.Scrolls v
  /-- A verb of a domain with verbs that is unknown, not advertised or withdrawn is passed over,
  whatever its body. -/
  ignored : ∀ message left d name, c.pc = .deliver message left → Names message d name →
    (knownVerb d name = false ∨
      ∀ snapshot, lastPublished c.published d = some snapshot → ¬ snapshot.Offers name) →
    ∀ written read, c.work json written read = some { c with pc := .receiving left }
  /-- An advertised verb with a body that is missing or ill-typed ends the channel. -/
  closes : ∀ message left d name snapshot, c.pc = .deliver message left →
    Names message d name → knownVerb d name = true →
    lastPublished c.published d = some snapshot → snapshot.Offers name →
    (∀ body, message.get "body" = some body → Verb.IllTyped ⟨d, name, body⟩) →
    ∀ written read, c.work json written read = some { c with pc := .ending }

/-- The snapshot that the gate looks at is the one published last. -/
lemma Shows.snapshot (h : c.Shows) {message : Value} {left : ℕ} (hpc : c.pc = .deliver message left)
    {d : Domain} (hd : d.hasVerbs = true) : c.state.snapshot d = lastPublished c.published d := by
  refine h.shown ?_ d ?_
  · rw [hpc]
    exact nofun
  · rintro rfl
    cases hd

end Channel

/-- A snapshot of nothing to scroll, that offers to scroll by a step. -/
def stepsOffered : Snapshot :=
  .scroll
    { x := ⟨true, .zero, .zero, .zero⟩
      y := ⟨false, .zero, .zero, .zero⟩
      capabilities := .collect [("scroll_by_step", true)] }

/-- The producer makes a pass and receives a message. -/
def receiving (json : JsonText) (message : Value) : List ChannelLabel :=
  List.replicate 4 (.work .wouldBlock .wouldBlock) ++
    [.work .wouldBlock (.ok (LengthPrefix.prefixed 4 (json.toVec message))),
      .work .wouldBlock .wouldBlock]

/-- A producer that has offered to scroll by a step and received a message. -/
def offering (message : Value) : Channel :=
  play (Channel.step (jsonOf [message])) { producer := true }
    (.publish stepsOffered :: .work .wouldBlock .wouldBlock :: receiving (jsonOf [message]) message)

end Jackstay.Affordances
