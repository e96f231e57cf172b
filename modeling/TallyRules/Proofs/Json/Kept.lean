import Mathlib.Data.List.Basic
import TallyRules.Proofs.Json.Written

/-! # Objects of which some members are kept

Any members of an object may be left out, and the others given in any order. A record that is
read from what is kept has the settings of its members, and is otherwise as at the start.
-/

namespace TallyRules.Json

/-- An object of those members of `whole` whose paths are kept, in any order. Members of members
are kept or left out by their own paths, down to `depth` levels, and what is deeper is kept as it
is. The names in an object are taken to be distinct. -/
def Keeps : (depth : Nat) → (kept : List String → Bool) → (whole part : Json) → Prop
  | depth + 1, kept, object members, part =>
    ∃ parts, part = object parts ∧
      (parts.map (·.1)).Perm ((members.map (·.1)).filter fun name => kept [name]) ∧
      ∀ p ∈ parts, ∃ value, (p.1, value) ∈ members ∧
        Keeps depth (fun path => kept (p.1 :: path)) value p.2
  | _, _, whole, part => part = whole

variable {depth room : Nat} {kept : List String → Bool} {whole part : Json}
  {members : List (String × Json)}

theorem keeps_zero_iff : Keeps 0 kept whole part ↔ part = whole := by
  simp [Keeps]

theorem Keeps.eq (h : Keeps depth kept whole part) (hw : ∀ members, whole ≠ object members) :
    part = whole := by
  rw [Keeps] at h
  · exact h
  · exact fun _ members _ => hw members

theorem exists_keeps (depth : Nat) (kept : List String → Bool) (whole : Json) :
    ∃ part, Keeps depth kept whole part := by
  induction depth generalizing kept whole with
  | zero => exact ⟨whole, keeps_zero_iff.2 rfl⟩
  | succ depth ih =>
    choose f hf using ih
    cases whole with
    | object members =>
      refine ⟨_, (members.filter fun member => kept [member.1]).map fun member =>
        (member.1, f (fun path => kept (member.1 :: path)) member.2), rfl, .of_eq ?_, ?_⟩
      · simp [List.filter_map, Function.comp_def]
      · rw [List.forall_mem_map]
        intro member hm
        exact ⟨member.2, List.mem_of_mem_filter hm, hf _ _⟩
    | _ => exact ⟨_, rfl⟩

theorem keeps_all (depth : Nat) (whole : Json) : Keeps depth (fun _ => true) whole whole := by
  induction depth generalizing whole with
  | zero => exact keeps_zero_iff.2 rfl
  | succ depth ih =>
    cases whole with
    | object members =>
      refine ⟨members, rfl, .of_eq ?_, fun p hp => ⟨p.2, hp, ih p.2⟩⟩
      exact (List.filter_eq_self.2 fun _ _ => rfl).symm
    | _ => rfl

theorem keeps_none (depth : Nat) (members : List (String × Json)) :
    Keeps (depth + 1) (fun _ => false) (object members) (object []) := by
  refine ⟨[], rfl, .of_eq ?_, ?_⟩
  · simp
  · intro p hp
    cases hp

theorem noNumberUnder_iff :
    NoNumberUnder members ↔ ∀ member ∈ members, NoNumber member.2 := by
  induction members with
  | nil => simp [NoNumberUnder]
  | cons member members ih => simp [NoNumberUnder, ih]

theorem Keeps.noNumber (h : Keeps depth kept whole part) (hw : whole.NoNumber) :
    part.NoNumber := by
  induction depth generalizing kept whole part with
  | zero => exact keeps_zero_iff.1 h ▸ hw
  | succ depth ih =>
    cases whole with
    | object members =>
      obtain ⟨parts, rfl, -, hparts⟩ := h
      rw [NoNumber, noNumberUnder_iff] at hw ⊢
      intro p hp
      obtain ⟨value, hm, hk⟩ := hparts p hp
      exact ih hk (hw _ hm)
    | _ => exact h.eq (by simp) ▸ hw

variable {σ : Type} {fields : List (FieldReader σ)} {state : (String → Bool) → σ}

/-- What is read under a name becomes the setting that the state has for the name. -/
def Sets (fields : List (FieldReader σ)) (room : Nat) (state : (String → Bool) → σ)
    (name : String) (r : Reading) : Prop :=
  ∃ field, fields.find? (·.name = name) = some field ∧ ∀ given,
    field.read room r (state given) = .ok (state fun other => other == name || given other)

theorem readMembers_sets {parts : List (String × Json)} {given : String → Bool}
    {seen : List String} (hsets : ∀ p ∈ parts, Sets fields room state p.1 p.2.reading)
    (hn : (parts.map (·.1)).Nodup) (hseen : ∀ p ∈ parts, p.1 ∉ seen) :
    Reading.readMembers fields room none seen (memberReadings parts) (state given) =
      .ok (state fun name => decide (name ∈ parts.map (·.1)) || given name) := by
  -- What is given grows by one name with each member, in step with the names seen.
  induction parts generalizing seen given with
  | nil => simp [memberReadings, Reading.readMembers, close]
  | cons p parts ih =>
    obtain ⟨name, value⟩ := p
    obtain ⟨field, hfind, hread⟩ := hsets _ List.mem_cons_self
    rw [List.map_cons, List.nodup_cons] at hn
    have hnext : ∀ p ∈ parts, p.1 ∉ name :: seen := by
      intro p hp
      have hname : p.1 ≠ name := fun heq => hn.1 (heq ▸ List.mem_map_of_mem (f := (·.1)) hp)
      simp [hname, hseen p (List.mem_cons_of_mem _ hp)]
    have hrest : ∀ p ∈ parts, Sets fields room state p.1 p.2.reading := by
      intro p hp
      exact hsets p (List.mem_cons_of_mem _ hp)
    rw [memberReadings, Reading.readMembers]
    simp only [hfind, if_neg (hseen _ List.mem_cons_self), hread]
    refine (ih hrest hn.2 hnext).trans ?_
    congr 2
    ext other
    simp only [List.map_cons, List.mem_cons, Bool.decide_or, Bool.beq_eq_decide_eq,
      Bool.or_left_comm, Bool.or_assoc]

/-- Reading an object of the members that are kept gives the state with their settings. -/
theorem Keeps.toRecord (h : Keeps (depth + 1) kept (object members) part)
    (state : (String → Bool) → σ) (label : String) (hn : (members.map (·.1)).Nodup)
    (hstate : ∀ given given', (∀ name ∈ members.map (·.1), given name = given' name) →
      state given = state given')
    (hsets : ∀ name value part, (name, value) ∈ members →
      Keeps depth (fun path => kept (name :: path)) value part →
        Sets fields room state name part.reading) :
    part.reading.toRecord (room + 1) label fields (state fun _ => false) =
      .ok (state fun name => kept [name]) := by
  obtain ⟨parts, rfl, hperm, hparts⟩ := h
  have hrun : Reading.readMembers fields room none [] (memberReadings parts)
      (state fun _ => false) =
        .ok (state fun name => decide (name ∈ parts.map (·.1)) || false) := by
    apply readMembers_sets
    · intro p hp
      obtain ⟨value, hm, hk⟩ := hparts p hp
      exact hsets _ _ _ hm hk
    · exact hperm.nodup_iff.2 (hn.filter _)
    · exact fun _ _ => List.not_mem_nil
  refine hrun.trans (congrArg Except.ok ?_)
  apply hstate
  intro name hname
  simp [hperm.mem_iff, List.mem_filter, hname]

theorem sets_text {s name : String} {set : String → σ → σ}
    (hfind : fields.find? (·.name = name) = some (.text name set))
    (hset : ∀ given, set s (state given) = state fun other => other == name || given other) :
    Sets fields room state name (string s).reading :=
  ⟨_, hfind, fun given => congrArg Except.ok (hset given)⟩

end TallyRules.Json
