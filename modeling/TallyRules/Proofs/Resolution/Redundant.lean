import TallyRules.Proofs.Resolution.Groups

/-! # Unfilters that cancel nothing

An unfilter makes no difference to the condition, not even to its form, if
every filter on the field that stands before it is already cancelled. The field
must have been mentioned before, since otherwise the unfilter would decide the
order of the fields.
-/

namespace TallyRules

/-- After every filter on the field follows an unfilter on it. -/
def FiltersCancelled (field : String) (rules : List Rule) : Prop :=
  ∀ rule later, rule :: later <:+ rules → rule.field = field →
    rule.constraint.operator = .filter → ∃ r ∈ later, r.Cancels rule

section FiltersCancelled

variable {field : String} {rule : Rule} {rules later : List Rule}

theorem filtersCancelled_nil : FiltersCancelled field [] := by
  intro rule later h
  simp at h

theorem filtersCancelled_cons_iff :
    FiltersCancelled field (rule :: rules) ↔
      (rule.field = field → rule.constraint.operator = .filter → ∃ r ∈ rules, r.Cancels rule) ∧
        FiltersCancelled field rules := by
  constructor
  · intro h
    exact ⟨h rule rules (List.suffix_refl _),
      fun r later hs => h r later (hs.trans (List.suffix_cons rule rules))⟩
  · rintro ⟨hrule, hrules⟩ r later hs
    rcases List.suffix_cons_iff.mp hs with heq | hs
    · obtain ⟨rfl, rfl⟩ := List.cons.inj heq
      exact hrule
    · exact hrules r later hs

theorem FiltersCancelled.append (h : FiltersCancelled field rules)
    (hl : FiltersCancelled field later) : FiltersCancelled field (rules ++ later) := by
  induction rules with
  | nil => exact hl
  | cons rule rules ih =>
    obtain ⟨hrule, hrules⟩ := filtersCancelled_cons_iff.mp h
    refine filtersCancelled_cons_iff.mpr ⟨fun hf ho => ?_, ih hrules⟩
    obtain ⟨r, hr, hc⟩ := hrule hf ho
    exact ⟨r, List.mem_append_left later hr, hc⟩

theorem filtersCancelled_singleton (h : rule.field = field → rule.constraint.operator ≠ .filter) :
    FiltersCancelled field [rule] :=
  filtersCancelled_cons_iff.mpr ⟨fun hf ho => absurd ho (h hf), filtersCancelled_nil⟩

theorem filtersCancelled_append_unfilter (hf : rule.field = field)
    (hu : rule.constraint = .unfilter) (rules : List Rule) :
    FiltersCancelled field (rules ++ [rule]) := by
  induction rules with
  | nil =>
    refine filtersCancelled_singleton fun _ => ?_
    rw [hu]
    exact Operator.noConfusion
  | cons r rules ih =>
    refine filtersCancelled_cons_iff.mpr ⟨fun hr _ => ⟨rule, by simp, hf.trans hr.symm, hu⟩, ih⟩

end FiltersCancelled

namespace Resolution

variable {unfilter : Rule} {before : List Rule}

theorem mentioned_insert {rule : Rule} (h : ∃ r ∈ before, r.field = rule.field)
    (later : List Rule) : mentioned (before ++ rule :: later) = mentioned (before ++ later) := by
  have hold : (rule.field :: later.map Rule.field).removeAll (before.map Rule.field) =
      (later.map Rule.field).removeAll (before.map Rule.field) := by
    simp [List.removeAll, h]
  rw [mentioned, mentioned, List.map_append, List.map_append, List.map_cons,
    List.eraseDups_append, List.eraseDups_append, hold]

theorem exclusions_insert (hu : unfilter.constraint = .unfilter) (later : List Rule) :
    exclusions (before ++ unfilter :: later) = exclusions (before ++ later) := by
  simp [exclusions, Rule.Excludes, hu, Constraint.operator]

theorem includesBefore_insert {rule : Rule}
    (h : rule.field = unfilter.field → rule.constraint.operator = .filter →
      ∃ r ∈ before, r.Cancels rule) (later : List Rule) :
    rule.IncludesBefore (before ++ unfilter :: later) ↔ rule.IncludesBefore (before ++ later) := by
  unfold Rule.IncludesBefore
  split
  · rename_i value hc
    simp only [List.forall_mem_append, List.forall_mem_cons]
    constructor
    · rintro ⟨hb, -, hl⟩
      exact ⟨hb, hl⟩
    · rintro ⟨hb, hl⟩
      refine ⟨hb, fun hcancels => ?_, hl⟩
      -- what the unfilter would cancel is cancelled before it
      obtain ⟨r, hr, hcr⟩ := h hcancels.1.symm (by rw [hc]; rfl)
      exact hb r hr hcr
  all_goals rfl

theorem activeInclusions_insert (hu : unfilter.constraint = .unfilter)
    (h : FiltersCancelled unfilter.field before) (later : List Rule) :
    activeInclusions (before ++ unfilter :: later) = activeInclusions (before ++ later) := by
  induction before with
  | nil =>
    have hn : ¬ unfilter.IncludesBefore later := by simp [Rule.IncludesBefore, hu]
    rw [List.nil_append, activeInclusions, if_neg hn, List.nil_append]
  | cons rule before ih =>
    obtain ⟨hrule, hbefore⟩ := filtersCancelled_cons_iff.mp h
    rw [List.cons_append, List.cons_append, activeInclusions, activeInclusions, ih hbefore]
    simp only [includesBefore_insert hrule]

end Resolution

namespace Condition

theorem ofRules_insert {unfilter : Rule} {before : List Rule}
    (hu : unfilter.constraint = .unfilter) (hm : ∃ r ∈ before, r.field = unfilter.field)
    (hc : FiltersCancelled unfilter.field before) (later : List Rule) :
    ofRules (before ++ unfilter :: later) = ofRules (before ++ later) := by
  refine ofRules_congr (Resolution.mentioned_insert hm later) fun field => ?_
  rw [Resolution.testsOn, Resolution.testsOn, Resolution.activeInclusions_insert hu hc,
    Resolution.exclusions_insert hu]

/-- Further unfilters on a field make no difference as long as no filter on it comes between. -/
theorem ofRules_filter_unfilters {field : String} {before between : List Rule}
    (hm : ∃ r ∈ before, r.field = field) (hc : FiltersCancelled field before)
    (hb : ∀ r ∈ between, r.field = field → r.constraint.operator ≠ .filter)
    (later : List Rule) :
    ofRules (before ++ between ++ later) =
      ofRules (before ++ between.filter (fun r => ¬ (r.field = field ∧ r.constraint = .unfilter)) ++
        later) := by
  induction between generalizing before with
  | nil => simp
  | cons rule between ih =>
    obtain ⟨hrule, hbetween⟩ := List.forall_mem_cons.mp hb
    by_cases hu : rule.field = field ∧ rule.constraint = .unfilter
    · obtain ⟨rfl, hu⟩ := hu
      rw [List.filter_cons_of_neg (by simp [hu]), ← ih hm hc hbetween, List.append_assoc,
        List.append_assoc, List.cons_append]
      exact ofRules_insert hu hm hc (between ++ later)
    · obtain ⟨r, hr, hf⟩ := hm
      have h := ih ⟨r, List.mem_append_left [rule] hr, hf⟩
        (hc.append (filtersCancelled_singleton hrule)) hbetween
      have hkept : decide (¬ (rule.field = field ∧ rule.constraint = .unfilter)) = true :=
        decide_eq_true hu
      rw [List.filter_cons, if_pos hkept]
      simp only [List.append_assoc, List.cons_append] at h ⊢
      exact h

/-- An unfilter can be left out, and the condition keeps its form, if its field is mentioned before
it and all filters on the field before it are cancelled already. So after an unfilter all others
on its field can be left out up to the next filter on it. -/
theorem ofRules_redundant_unfilter (metric : Metric) {field : String} {before : List Rule}
    (hm : ∃ r ∈ before, r.field = field) (hc : FiltersCancelled field before)
    (later : List Rule) :
    ofRules (before ++ ⟨metric, field, .unfilter⟩ :: later) = ofRules (before ++ later) ∧
      ∀ first between : List Rule,
        (∀ r ∈ between, r.field = field → r.constraint.operator ≠ .filter) →
        ofRules (first ++ ⟨metric, field, .unfilter⟩ :: between ++ later) =
          ofRules (first ++ ⟨metric, field, .unfilter⟩ ::
            between.filter (fun r => ¬ (r.field = field ∧ r.constraint = .unfilter)) ++ later) := by
  refine ⟨ofRules_insert rfl hm hc later, fun first between hb => ?_⟩
  let unfilter : Rule := ⟨metric, field, .unfilter⟩
  have hfirst : FiltersCancelled field (first ++ [unfilter]) :=
    filtersCancelled_append_unfilter rfl rfl first
  have h := ofRules_filter_unfilters
    ⟨unfilter, List.mem_append_right first (List.mem_singleton_self _), rfl⟩ hfirst hb later
  simpa using h

/-- Two filters that are cancelled, beside an inclusion that is not, and further unfilters between
an exclusion and a filter on another field. -/
theorem ofRules_redundant_unfilter_twice :
    let rule := Rule.mk .numerator
    let before := [rule "a" (.filter (.bool true)), rule "b" (.filter (.string "u")),
      rule "a" (.contain []), rule "a" (.filter (.string "")), rule "a" .unfilter]
    let between := [rule "a" .unfilter, rule "b" (.filter (.string "v")), rule "b" .unfilter,
      rule "a" .unfilter, rule "a" (.exclude (.bool false))]
    let later := [rule "b" .present, rule "a" (.filter (.string "w"))]
    ((∃ r ∈ before, r.field = "a") ∧ FiltersCancelled "a" before) ∧
      (∀ r ∈ between, r.field = "a" → r.constraint.operator ≠ .filter) ∧
      ofRules (before ++ rule "a" .unfilter :: later) = ofRules (before ++ later) ∧
      ofRules (before ++ rule "a" .unfilter :: between ++ later) =
        ofRules (before ++ rule "a" .unfilter :: [rule "b" (.filter (.string "v")),
          rule "b" .unfilter, rule "a" (.exclude (.bool false))] ++ later) := by
  intro rule before between later
  have hm : ∃ r ∈ before, r.field = "a" := ⟨_, List.mem_cons_self, rfl⟩
  have hc : FiltersCancelled "a" before :=
    @filtersCancelled_append_unfilter _ (rule "a" .unfilter) rfl rfl (before.take 4)
  have hb : ∀ r ∈ between, r.field = "a" → r.constraint.operator ≠ .filter := by decide
  obtain ⟨hone, hmany⟩ := ofRules_redundant_unfilter .numerator hm hc later
  exact ⟨⟨hm, hc⟩, hb, hone, hmany before between hb⟩

/-- The first mention of a field counts for the order of the fields. -/
example :
    let rule := Rule.mk .numerator
    let later := [rule "b" .present, rule "a" .present]
    ofRules (rule "a" .unfilter :: later) ≠ ofRules later := by
  decide +kernel

end Condition

end TallyRules
