import TallyRules.Proofs.RuleLine.Parts

/-! # Where lines fail

A line that is no rule fails in one of its parts, and the parts before that one
are read. Where it fails it could go on: with a keyword, with the column, with
a comparison or with a value. Only where something is left over at the end
could nothing follow, and there the text before is a rule already.
-/

namespace TallyRules.RuleLine

open Text (skipBlank)

/-- The part in which a line fails, after those that are read. -/
inductive Fails : List Char → Stop → Prop
  | keyword {cs stop} (h : scanKeyword cs = .error stop) : Fails cs stop
  | columnWord {cs keyword a stop} (hk : Start cs keyword a)
      (h : scanToColumn a = .error stop) : Fails cs stop
  | column {cs keyword a b stop} (hk : Start cs keyword a) (hc : ToColumn a b)
      (h : scanColumn (skipBlank b) = .error stop) : Fails cs stop
  | comparator {cs keyword column a stop} (hs : Subject cs keyword column a)
      (h : scanComparison keyword (skipBlank a) = .error stop) : Fails cs stop
  | value {cs keyword column a comparator b stop} (hs : Subject cs keyword column a)
      (hc : Compares (skipBlank a) comparator b) (hp : comparator ≠ .present)
      (h : scanValues b = .error stop) : Fails cs stop
  | lineEnd {cs line rest stop} (hl : States cs line rest) (h : scanEnd rest = .error stop) :
      Fails cs stop

variable {cs a b rest : List Char} {stop : Stop}

theorem compares_of_scanComparison {keyword : Keyword} {comparator : Option Comparator}
    (h : scanComparison keyword cs = .ok (comparator, rest)) (ht : takesValues comparator = true) :
    ∃ found, comparator = some found ∧ found ≠ .present ∧ Compares cs found rest := by
  simp only [scanComparison] at h
  split at h
  · rename_i found r hfound
    cases h
    refine ⟨found, rfl, ?_, compares_of_scanComparator hfound⟩
    rintro rfl
    cases ht
  · split at h
    · cases h
      cases ht
    · cases h

theorem fails_of_scan (h : scan cs = .error stop) : Fails cs stop := by
  simp only [scan] at h
  rcases bind_eq_error_iff.mp h with hk | ⟨⟨keyword, a⟩, hk, h⟩
  · exact .keyword hk
  have hstart := scanKeyword_eq_ok_iff.mp hk
  rcases bind_eq_error_iff.mp h with hw | ⟨b, hw, h⟩
  · exact .columnWord hstart hw
  rcases bind_eq_error_iff.mp h with hc | ⟨⟨column, c⟩, hc, h⟩
  · exact .column hstart (toColumn_of_scanToColumn hw) hc
  have hsubject : Subject cs keyword column c := subject_iff.mpr ⟨a, b, hk, hw, hc⟩
  rcases bind_eq_error_iff.mp h with hp | ⟨⟨comparator, d⟩, hp, h⟩
  · exact .comparator hsubject hp
  dsimp only at h
  split at h
  · rename_i ht
    obtain ⟨found, rfl, hne, hcompares⟩ := compares_of_scanComparison hp ht
    rcases bind_eq_error_iff.mp h with hv | ⟨⟨values, e⟩, hv, h⟩
    · exact .value hsubject hcompares hne hv
    rcases bind_eq_error_iff.mp h with he | ⟨_, _, h⟩
    · exact .lineEnd (states_of_scan hsubject hp ((if_pos ht).trans hv)) he
    · cases h
  · rename_i ht
    obtain ⟨⟨values, e⟩, hv, h⟩ := (bind_eq_error_iff.mp h).resolve_left fun he => by cases he
    rcases bind_eq_error_iff.mp h with he | ⟨_, _, h⟩
    · exact .lineEnd (states_of_scan hsubject hp ((if_neg ht).trans hv)) he
    · cases h

section Expected

def anyQuoted : List Char :=
  ['"', 'x', '"']

theorem quoted_anyQuoted (rest : List Char) : Quoted (anyQuoted ++ rest) "x" rest :=
  .mk rfl (.plain (by decide) rfl (.close rfl))

theorem scanKeyword_error (h : scanKeyword cs = .error stop) :
    stop.expected = .keyword ∧ ∃ part, cs = part ++ stop.rest ∧
      ∀ {word keyword a rest}, (word, keyword) ∈ keywords → Word a word rest →
        Start (part ++ a) keyword rest := by
  simp only [scanKeyword] at h
  split at h
  · cases h
  · cases h
    refine ⟨rfl, ?_⟩
    obtain ⟨blanks, hcs, hspace⟩ := (space_skipBlank cs).exists_part
    rcases skipMarker_cases (skipBlank cs) with he | hm
    · refine ⟨blanks, ?_, fun hk hw => .plain (hspace _) hw hk⟩
      rw [he, Text.skipBlank_skipBlank, ← hcs]
    · obtain ⟨mark, hmark, hmarker⟩ := hm.exists_part
      obtain ⟨after, hafter, hspace'⟩ := (space_skipBlank (skipMarker (skipBlank cs))).exists_part
      refine ⟨blanks ++ (mark ++ after), ?_, fun hk hw => ?_⟩
      · rw [List.append_assoc, List.append_assoc, ← hafter, ← hmark, ← hcs]
      · simp only [List.append_assoc]
        exact .marked (hspace _) (hmarker _) (hspace' _) hw hk

/-- The words that are passed over may be followed by the column. -/
theorem scanToColumn_error (h : scanToColumn cs = .error stop) :
    stop.expected = .columnWord ∧ ∃ part, cs = part ++ stop.rest ∧
      ∀ {a rest}, EndsRun isFillerChar a → ToColumn a rest → ToColumn (part ++ a) rest := by
  fun_induction scanToColumn cs with
  | case1 cs rest _ => cases h
  | case2 cs hn rest hf ih =>
    obtain ⟨hexpected, part, rfl, hcolumn⟩ := ih h
    have hf := skipFiller_eq_some_iff.mp hf
    have hn : ∀ r, ¬ Word (skipBlank cs) "column" r := by
      intro r hw
      cases hn.symm.trans (scanThe_eq_some_iff.mpr hw)
    obtain ⟨blanks, hcs, hspace⟩ := (space_skipBlank cs).exists_part
    obtain ⟨chars, hchars, hfiller⟩ := hf.exists_part hn
    refine ⟨hexpected, blanks ++ (chars ++ part), ?_, fun {a rest} hs hc => ?_⟩
    · rw [List.append_assoc, List.append_assoc, ← hchars, ← hcs]
    · obtain ⟨hf', hn'⟩ := hfiller (part ++ a) (hf.endsRun.append fun _ => hs)
      simp only [List.append_assoc]
      exact .filler (hspace _) hn' hf' (hcolumn hs hc)
  | case3 cs _ _ =>
    cases h
    obtain ⟨blanks, hcs, hspace⟩ := (space_skipBlank cs).exists_part
    exact ⟨rfl, blanks, hcs, fun _ hc => hc.of_space (hspace _)⟩

theorem body_of_unclosed (h : scanQuotedRest cs = none) :
    ∃ s, 'x' ∈ s ∧ ∀ rest, Body (cs ++ 'x' :: '"' :: rest) s rest := by
  fun_induction scanQuotedRest cs with
  | case1 => exact ⟨['x'], by simp, fun _ => .plain (by decide) rfl (.close rfl)⟩
  | case2 => exact ⟨unescape 'x' ++ [], by decide, fun _ => .escaped (.close rfl)⟩
  | case3 c cs ih =>
    obtain ⟨s, hx, hbody⟩ := ih (Option.map_eq_none_iff.mp h)
    exact ⟨unescape c ++ s, List.mem_append_right _ hx, fun rest => .escaped (hbody rest)⟩
  | case4 => cases h
  | case5 c cs hb hb' hq ih =>
    obtain ⟨s, hx, hbody⟩ := ih (Option.map_eq_none_iff.mp h)
    exact ⟨c :: s, List.mem_cons_of_mem c hx, fun rest =>
      .plain (ne_backslash hb hb') (Bool.not_eq_true _ ▸ hq) (hbody rest)⟩

theorem quotedStop_viable (h : scanQuoted cs = none) (expected : Expectation) :
    (quotedStop cs expected).expected = expected ∧
      ∃ part more text, cs = part ++ (quotedStop cs expected).rest ∧ Text.isBlank text = false ∧
        ∀ rest, Quoted (part ++ (more ++ rest)) text rest := by
  have hany : Text.isBlank "x" = false := by decide
  cases cs with
  | nil => exact ⟨rfl, [], anyQuoted, "x", rfl, hany, quoted_anyQuoted⟩
  | cons c cs =>
    by_cases hq : isOpeningQuote c = true
    · have hs : quotedStop (c :: cs) expected = ⟨[], expected⟩ := if_pos hq
      simp only [scanQuoted, hq, if_true, Option.map_eq_none_iff] at h
      obtain ⟨s, hx, hbody⟩ := body_of_unclosed h
      have hb : Text.isBlank (String.ofList s) = false :=
        Text.isBlank_eq_false_of_mem (by rwa [String.toList_ofList]) (by decide)
      rw [hs]
      exact ⟨rfl, c :: cs, ['x', '"'], .ofList s, (List.append_nil _).symm, hb,
        fun rest => .mk hq (hbody rest)⟩
    · have hs : quotedStop (c :: cs) expected = ⟨c :: cs, expected⟩ := if_neg hq
      rw [hs]
      exact ⟨rfl, [], anyQuoted, "x", rfl, hany, quoted_anyQuoted⟩

theorem scanColumn_error (h : scanColumn cs = .error stop) :
    stop.expected = .column ∧ ∃ part more text, cs = part ++ stop.rest ∧
      Text.isBlank text = false ∧ ∀ rest, Quoted (part ++ (more ++ rest)) text rest := by
  unfold scanColumn at h
  split at h
  · rename_i hq
    cases h
    exact quotedStop_viable hq .column
  · split at h
    · cases h
      exact ⟨rfl, [], anyQuoted, "x", rfl, by decide, quoted_anyQuoted⟩
    · cases h

theorem scanValues_error (h : scanValues cs = .error stop) :
    stop.expected = .value ∧ ∃ part more text, cs = part ++ stop.rest ∧
      ∀ rest, Values (part ++ (more ++ rest)) [text] rest := by
  unfold scanValues at h
  split at h
  · rename_i hq
    cases h
    obtain ⟨he, part, more, text, hcs, -, hquoted⟩ := quotedStop_viable hq .value
    obtain ⟨blanks, hblanks, hspace⟩ := (space_skipBlank cs).exists_part
    refine ⟨he, blanks ++ part, more, text, ?_, fun rest => ?_⟩
    · rw [List.append_assoc, ← hcs, ← hblanks]
    · rw [List.append_assoc]
      exact .last (hspace _) (hquoted rest)
  · cases h

theorem scanComparison_error {keyword : Keyword} (h : scanComparison keyword cs = .error stop) :
    stop.expected = .comparator ∧ stop.rest = cs := by
  unfold scanComparison at h
  split at h
  · cases h
  · split at h
    · cases h
    · cases h
      exact ⟨rfl, rfl⟩

theorem scanEnd_error (h : scanEnd cs = .error stop) :
    ∃ part, cs = part ++ stop.rest ∧ Ending part := by
  have hrest : stop.rest = skipBlank (skipFullStop (skipBlank cs)) := by
    unfold scanEnd at h
    split at h
    · cases h
    · cases h
      rfl
  obtain ⟨blanks, hcs, hspace⟩ := (space_skipBlank cs).exists_part
  have hblanks : Space blanks [] := by simpa using hspace []
  rw [hrest]
  unfold skipFullStop
  split
  · rename_i tail ht
    obtain ⟨after, htail, hspace'⟩ := (space_skipBlank tail).exists_part
    refine ⟨blanks ++ '.' :: after, ?_, ?_⟩
    · rw [List.append_assoc, List.cons_append, ← htail, ← ht, ← hcs]
    · exact .fullStop (hspace _) (by simpa using hspace' [])
  · rw [Text.skipBlank_skipBlank]
    exact ⟨blanks, hcs, .bare hblanks⟩

end Expected

section Viable

/-- The text can go on to a line that states a rule. -/
def Viable (before : List Char) : Prop :=
  ∃ more line, Derives (before ++ more) line

theorem Viable.of_append (h : Viable (a ++ b)) : Viable a := by
  obtain ⟨more, line, hd⟩ := h
  exact ⟨b ++ more, line, by rwa [← List.append_assoc]⟩

theorem Derives.viable {line : RuleLine} (h : Derives cs line) : Viable cs :=
  ⟨[], line, by rwa [List.append_nil]⟩

def anyComparison : List Char :=
  '=' :: anyQuoted

theorem Subject.viable {keyword : Keyword} {column : String} (h : Subject cs keyword column a)
    (hs : Space a anyComparison) : Viable cs :=
  (Derives.valued h hs .sign (by decide) (.last (space_refl _) (quoted_anyQuoted []))
    (.bare (space_refl _))).viable

def anyColumn : List Char :=
  " column ".toList ++ anyQuoted

theorem toColumn_anyColumn (rest : List Char) :
    ToColumn (anyColumn ++ rest) (' ' :: (anyQuoted ++ rest)) := by
  have hcolumn : Spelt "column" := by decide
  exact .column (space_cons _) (hcolumn.word (head?_space (anyQuoted ++ rest)))

theorem Start.viable {keyword : Keyword} (hk : Start cs keyword a)
    (hc : ToColumn a (' ' :: (anyQuoted ++ anyComparison))) : Viable cs :=
  Subject.viable (.mk hk hc (space_cons _) (quoted_anyQuoted _) (by decide)) (space_refl _)

theorem Fails.viable (h : Fails cs stop) :
    ∃ before, cs = before ++ stop.rest ∧ Viable before ∧
      (stop.expected = .lineEnd → ∃ line, Derives before line) := by
  cases h with
  | keyword h =>
    obtain ⟨he, part, hcs, hstart⟩ := scanKeyword_error h
    refine ⟨part, hcs, ?_, fun hl => by rw [he] at hl; cases hl⟩
    have hfilter : Spelt "Filter" := by decide
    have hk : Start (part ++ ("Filter".toList ++ (anyColumn ++ anyComparison))) .filter
        (anyColumn ++ anyComparison) := hstart (by decide) (hfilter.word (head?_space _))
    exact (hk.viable (toColumn_anyColumn _)).of_append
  | columnWord hk h =>
    obtain ⟨he, part, rfl, hcolumn⟩ := scanToColumn_error h
    obtain ⟨start, rfl, hstart⟩ := hk.exists_part
    refine ⟨start ++ part, by simp, ?_, fun hl => by rw [he] at hl; cases hl⟩
    have hspace : EndsRun isFillerChar (anyColumn ++ anyComparison) := endsRun_cons rfl _
    have hnext := hcolumn hspace (toColumn_anyColumn _)
    have hk' := hstart (part ++ (anyColumn ++ anyComparison))
      (hk.endsRun.append fun _ => head?_space _)
    rw [← List.append_assoc] at hk'
    exact (hk'.viable hnext).of_append
  | @column keyword a b _ hk hc h =>
    obtain ⟨he, part, more, text, hb, hblank, hquoted⟩ := scanColumn_error h
    obtain ⟨blanks, hblanks, hspace⟩ := (space_skipBlank b).exists_part
    obtain ⟨before, rfl, hbefore⟩ := hk.exists_part_toColumn hc
    refine ⟨before ++ (blanks ++ part), ?_, ?_, fun hl => by rw [he] at hl; cases hl⟩
    · simp only [List.append_assoc, ← hb, ← hblanks]
    have hq := hquoted anyComparison
    obtain ⟨words, hk', hc'⟩ := hbefore _ ((hspace _).endsRun hq.endsRun)
    have hs := Subject.mk hk' hc' (hspace _) hq hblank
    have hv : Viable (before ++ (blanks ++ part) ++ (more ++ anyComparison)) := by
      simpa only [List.append_assoc] using hs.viable (space_refl _)
    exact hv.of_append
  | @comparator keyword column a _ hs h =>
    obtain ⟨he, hrest⟩ := scanComparison_error h
    obtain ⟨blanks, hblanks, hspace⟩ := (space_skipBlank a).exists_part
    obtain ⟨subject, rfl, hsubject⟩ := hs.exists_part
    refine ⟨subject ++ blanks, ?_, ?_, fun hl => by rw [he] at hl; cases hl⟩
    · rw [hrest, List.append_assoc, ← hblanks]
    have hv : Viable (subject ++ blanks ++ anyComparison) := by
      simpa only [List.append_assoc] using (hsubject _).viable (hspace _)
    exact hv.of_append
  | @value keyword column a comparator b _ hs hc hp h =>
    obtain ⟨he, part, more, text, rfl, hvalues⟩ := scanValues_error h
    obtain ⟨blanks, hblanks, hspace⟩ := (space_skipBlank a).exists_part
    obtain ⟨sign, hsign, hcompares⟩ := hc.exists_part
    obtain ⟨subject, rfl, hsubject⟩ := hs.exists_part
    refine ⟨subject ++ (blanks ++ (sign ++ part)), ?_, ?_, fun hl => by rw [he] at hl; cases hl⟩
    · simp only [List.append_assoc, ← hsign, ← hblanks]
    have hd := Derives.valued (hsubject _) (hspace _) (hcompares _ (hvalues []).endsRun) hp
      (hvalues []) (.bare (space_refl _))
    have hv : Viable (subject ++ (blanks ++ (sign ++ part)) ++ (more ++ [])) := by
      simpa only [List.append_assoc] using hd.viable
    exact hv.of_append
  | lineEnd hl h =>
    obtain ⟨part, rfl, hending⟩ := scanEnd_error h
    obtain ⟨before, rfl, hstates⟩ := hl.exists_part
    have hd := (hstates part hending.endsRun).derives hending
    exact ⟨before ++ part, (List.append_assoc _ _ _).symm, hd.viable, fun _ => ⟨_, hd⟩⟩

/-- Where a line cannot be read is a place in it: the place is one between two characters, the
mark of the message stands under it, and the text before it could go on to a line that states a
rule. If nothing is expected there, the text before it states a rule already. -/
theorem scan_error_viable {line : String} (h : scan line.toList = .error stop) :
    ∃ before : String, line = before ++ String.ofList stop.rest ∧
      (⟨before.utf8ByteSize⟩ : String.Pos.Raw).IsValid line ∧
      stop.message line = line ++ "\n" ++
        String.ofList (List.replicate before.utf8ByteSize ' ') ++ "^\n" ++ stop.expected.phrase ∧
      (∃ (more : String) (rule : RuleLine), scan (before ++ more).toList = .ok rule) ∧
      (stop.expected.phrase = "" → ∃ rule, scan before.toList = .ok rule) := by
  obtain ⟨before, hline, hviable, hend⟩ := (fails_of_scan h).viable
  have hsplit : line = String.ofList before ++ String.ofList stop.rest := by
    rw [← String.ofList_append, ← hline, String.ofList_toList]
  refine ⟨.ofList before, hsplit, ?_, ?_, ?_, fun hp => ?_⟩
  · exact String.Pos.Raw.isValid_iff_exists_append.mpr ⟨_, _, hsplit, rfl⟩
  · have hlength : Text.byteLength line.toList - Text.byteLength stop.rest =
        (String.ofList before).utf8ByteSize := by
      rw [← Text.byteLength_toList, String.toList_ofList, hline, Text.byteLength_append,
        Nat.add_sub_cancel]
    rw [Stop.message, hlength]
  · obtain ⟨more, rule, hd⟩ := hviable
    refine ⟨.ofList more, rule, ?_⟩
    rw [String.toList_append, String.toList_ofList, String.toList_ofList]
    exact hd.scan_eq
  · have hl : stop.expected = .lineEnd := by
      cases he : stop.expected <;> first | rfl | exact absurd (he ▸ hp) (by decide)
    obtain ⟨rule, hd⟩ := hend hl
    exact ⟨rule, by rw [String.toList_ofList]; exact hd.scan_eq⟩

theorem scan_error_viable_leftOver :
    let line := "Unfilter column \"Größe\". 1"
    let stop : Stop := ⟨['1'], .lineEnd⟩
    scan line.toList = .error stop ∧ ∃ before : String, line = before ++ "1" ∧
      stop.message line = line ++ "\n" ++
        String.ofList (List.replicate before.utf8ByteSize ' ') ++ "^\n" ∧
      ∃ rule, scan before.toList = .ok rule := by
  intro line stop
  have h : scan line.toList = .error stop := by decide +kernel
  obtain ⟨before, hline, -, hmessage, -, hrule⟩ := scan_error_viable h
  exact ⟨h, before, hline, hmessage.trans String.append_empty, hrule rfl⟩

end Viable

end TallyRules.RuleLine
