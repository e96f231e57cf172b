import TallyRules.Proofs.Resolution.Groups

/-! # Rules in another order

Rules on different fields may change places, and so may an exclusion and a rule
of another kind on its field: an unfilter cancels no exclusion, and an exclusion
makes no difference to what an unfilter cancels. The condition keeps its form as
long as the fields are first mentioned in the same order.
-/

namespace TallyRules

namespace Rule

/-- Two rules of which either may come first: they are on different fields, or just one of them is
an exclusion. -/
def Independent (a b : Rule) : Prop :=
  a.field ≠ b.field ∨ (a.Excludes ↔ ¬ b.Excludes)

instance (a b : Rule) : Decidable (a.Independent b) :=
  inferInstanceAs (Decidable (_ ∨ _))

/-- The rules on one track must keep their order. -/
def track (rule : Rule) : String × Bool :=
  (rule.field, rule.Excludes)

theorem independent_iff {a b : Rule} : a.Independent b ↔ a.track ≠ b.track := by
  simp only [Independent, track, ne_eq, Prod.mk.injEq, decide_eq_decide]
  tauto

end Rule

/-- Lists of rules that differ by exchanges of independent neighbours. -/
inductive Reordered : List Rule → List Rule → Prop
  | refl (rules : List Rule) : Reordered rules rules
  | cons (rule : Rule) {rules others : List Rule} (h : Reordered rules others) :
      Reordered (rule :: rules) (rule :: others)
  | swap {a b : Rule} (later : List Rule) (h : a.Independent b) :
      Reordered (a :: b :: later) (b :: a :: later)
  | trans {rules others more : List Rule} (h : Reordered rules others)
      (h' : Reordered others more) : Reordered rules more

namespace Resolution

variable {rules others : List Rule}

def onTrack (track : String × Bool) (rules : List Rule) : List Rule :=
  rules.filter (·.track = track)

theorem onTrack_exclusions (field : String) (rules : List Rule) :
    onTrack (field, true) rules = exclusions (onField field rules) := by
  simp [onTrack, exclusions, onField, Rule.track, List.filter_filter, Bool.and_comm]

theorem onTrack_others (field : String) (rules : List Rule) :
    onTrack (field, false) rules = (onField field rules).filter (¬ ·.Excludes) := by
  simp [onTrack, onField, Rule.track, List.filter_filter, Bool.and_comm]

/-- On each field there are two tracks, the exclusions and the other rules. -/
theorem forall_onTrack_eq_iff : (∀ track, onTrack track rules = onTrack track others) ↔
    ∀ field, exclusions (onField field rules) = exclusions (onField field others) ∧
      (onField field rules).filter (¬ ·.Excludes) =
        (onField field others).filter (¬ ·.Excludes) := by
  simp only [← onTrack_exclusions, ← onTrack_others]
  constructor
  · intro h field
    exact ⟨h (field, true), h (field, false)⟩
  · rintro h ⟨field, exclusion⟩
    cases exclusion
    · exact (h field).2
    · exact (h field).1

theorem onTrack_of_reordered (h : Reordered rules others) (track : String × Bool) :
    onTrack track rules = onTrack track others := by
  induction h with
  | refl => rfl
  | cons rule _ ih => simp only [onTrack, List.filter_cons] at ih ⊢; rw [ih]
  | @swap a b later h =>
    have hne := Rule.independent_iff.mp h
    by_cases ha : a.track = track
    · have hb : b.track ≠ track := fun hb => hne (ha.trans hb.symm)
      simp [onTrack, ha, hb]
    · simp [onTrack, List.filter_cons, ha]
  | trans _ _ ih ih' => exact ih.trans ih'

theorem reordered_middle {rule : Rule} {before : List Rule}
    (h : ∀ r ∈ before, r.track ≠ rule.track) (after : List Rule) :
    Reordered (rule :: (before ++ after)) (before ++ rule :: after) := by
  induction before with
  | nil => exact .refl _
  | cons r before ih =>
    obtain ⟨hr, hbefore⟩ := List.forall_mem_cons.mp h
    exact (Reordered.swap _ (Rule.independent_iff.mpr hr.symm)).trans (.cons r (ih hbefore))

/-- Lists with the same tracks differ by exchanges of independent rules only. -/
theorem reordered_of_onTrack (h : ∀ track, onTrack track rules = onTrack track others) :
    Reordered rules others := by
  induction rules generalizing others with
  | nil =>
    have hnil : others = [] := by
      refine List.eq_nil_iff_forall_not_mem.mpr fun rule hr => ?_
      have hm : rule ∈ onTrack rule.track others := by simp [onTrack, hr]
      rw [← h] at hm
      cases hm
    rw [hnil]
    exact .refl []
  | cons rule rules ih =>
    -- the first rule of its track among the others is the same rule
    have hfirst : onTrack rule.track others = rule :: onTrack rule.track rules := by
      rw [← h]
      simp [onTrack]
    obtain ⟨before, after, rfl, hbefore, -, hafter⟩ := List.filter_eq_cons_iff.mp hfirst
    have hb : ∀ r ∈ before, r.track ≠ rule.track := fun r hr => by simpa using hbefore r hr
    refine (Reordered.cons rule (ih fun track => ?_)).trans (reordered_middle hb after)
    have ht := h track
    by_cases he : rule.track = track
    · subst he
      have hnone : onTrack rule.track before = [] :=
        List.filter_eq_nil_iff.mpr fun r hr => by simpa using hb r hr
      simp only [onTrack, List.filter_append] at hnone hafter ⊢
      rw [hnone, hafter, List.nil_append]
    · simpa [onTrack, he] using ht

theorem includesBefore_filter_iff {rule : Rule} {later : List Rule} :
    rule.IncludesBefore (later.filter (¬ ·.Excludes)) ↔ rule.IncludesBefore later := by
  unfold Rule.IncludesBefore
  split
  · constructor
    · intro h r hr hc
      have hx : ¬ r.Excludes := by simp [Rule.Excludes, hc.2, Constraint.operator]
      exact h r (List.mem_filter.mpr ⟨hr, decide_eq_true hx⟩) hc
    · intro h r hr
      exact h r (List.mem_filter.mp hr).1
  all_goals rfl

theorem activeInclusions_filter (rules : List Rule) :
    activeInclusions (rules.filter (¬ ·.Excludes)) = activeInclusions rules := by
  induction rules with
  | nil => rfl
  | cons rule later ih =>
    rw [activeInclusions, ← ih]
    by_cases hx : rule.Excludes
    · have hn : ¬ rule.IncludesBefore later := by
        intro h
        unfold Rule.Excludes at hx
        unfold Rule.IncludesBefore at h
        split at h <;> simp_all [Constraint.operator]
      rw [if_neg hn, List.filter_cons_of_neg (by simpa using hx)]
    · rw [List.filter_cons_of_pos (by simpa using hx), activeInclusions]
      simp only [includesBefore_filter_iff]

/-- The tests on a field come from its two tracks, each on its own. -/
theorem testsOn_eq_onTrack (field : String) (rules : List Rule) :
    testsOn field rules =
      ⟨(activeInclusions (onTrack (field, false) rules)).filterMap Rule.test?,
        (onTrack (field, true) rules).filterMap Rule.test?⟩ := by
  rw [testsOn, onTrack_others, onTrack_exclusions, activeInclusions_filter,
    activeInclusions_onField, exclusions_onField]

end Resolution

namespace Condition

open Resolution

variable {rules others : List Rule}

theorem ofRules_congr_onTrack (hm : mentioned rules = mentioned others)
    (h : ∀ track, onTrack track rules = onTrack track others) : ofRules rules = ofRules others :=
  ofRules_congr hm fun field => by rw [testsOn_eq_onTrack, testsOn_eq_onTrack, h, h]

/-- Lists that first mention the fields in the same order make up the same condition, in the same
form, if on every field the exclusions are the same in the same order, and so are the other rules.
Just these lists differ by exchanges of neighbours that are on different fields, or of which one is
an exclusion and the other is not. -/
theorem ofRules_reordered (hm : mentioned rules = mentioned others) :
    ((∀ field, exclusions (onField field rules) = exclusions (onField field others) ∧
        (onField field rules).filter (¬ ·.Excludes) =
          (onField field others).filter (¬ ·.Excludes)) → ofRules rules = ofRules others) ∧
      (Reordered rules others ↔
        ∀ field, exclusions (onField field rules) = exclusions (onField field others) ∧
          (onField field rules).filter (¬ ·.Excludes) =
            (onField field others).filter (¬ ·.Excludes)) := by
  constructor
  · intro h
    exact ofRules_congr_onTrack hm (forall_onTrack_eq_iff.mpr h)
  · rw [← forall_onTrack_eq_iff]
    exact ⟨onTrack_of_reordered, reordered_of_onTrack⟩

/-- The exclusions move over the unfilter and between the fields; what the unfilter cancels and the
order of the inclusions stay. -/
theorem ofRules_reordered_interleaved :
    let rule := Rule.mk .numerator
    let rules := [rule "a" (.filter (.bool true)), rule "b" .unfilter,
      rule "a" (.exclude (.string "u")), rule "a" .unfilter, rule "b" (.exclude (.string "v")),
      rule "a" (.filter (.string "w")), rule "b" .present, rule "a" (.exclude (.bool false))]
    let others := [rule "a" (.exclude (.string "u")), rule "b" (.exclude (.string "v")),
      rule "a" (.exclude (.bool false)), rule "b" .unfilter, rule "b" .present,
      rule "a" (.filter (.bool true)), rule "a" .unfilter, rule "a" (.filter (.string "w"))]
    mentioned rules = mentioned others ∧
      (∀ field, exclusions (onField field rules) = exclusions (onField field others) ∧
        (onField field rules).filter (¬ ·.Excludes) =
          (onField field others).filter (¬ ·.Excludes)) ∧
      Reordered rules others ∧ ofRules rules = ofRules others := by
  intro rule rules others
  have hm : mentioned rules = mentioned others := by decide
  have h : ∀ field, exclusions (onField field rules) = exclusions (onField field others) ∧
      (onField field rules).filter (¬ ·.Excludes) =
        (onField field others).filter (¬ ·.Excludes) := by
    intro field
    by_cases ha : "a" = field
    · subst ha
      decide
    · by_cases hb : "b" = field
      · subst hb
        decide
      · simp [rules, others, rule, onField, ha, hb]
  obtain ⟨hsame, hreordered⟩ := ofRules_reordered hm
  exact ⟨hm, h, hreordered.mpr h, hsame h⟩

end Condition

end TallyRules
