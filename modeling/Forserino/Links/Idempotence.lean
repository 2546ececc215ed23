import Forserino.Links.WellFormed

/-! Parsing a link that the parser has found gives the same link.

A word is what is ignored at its start, a link, and what is ignored at its end. The parser works
on the link, apart from the parentheses, which it may take back from the end.
-/

set_option autoImplicit false

namespace Forserino.Links

open Forserino.Qt Forserino.Foundation QStringView

/-! ## Views -/

namespace QStringView

def shift (view : QStringView) (n : Nat) : QStringView := ⟨n + view.start, n + view.stop⟩

/-- Units in front of the source move a view. -/
theorem text_shift (view : QStringView) (front source : QString) :
    (view.shift front.length).text (front ++ source) = view.text source := by
  simp only [text, QString.midN, shift, Nat.add_sub_add_left, List.drop_append, Nat.add_sub_cancel_left]
  rw [List.drop_of_length_le (Nat.le_add_right _ _), List.nil_append]

/-- A view does not see what is behind it. -/
theorem text_prefix {view : QStringView} {source : QString} (inside : view.stop ≤ source.length) (back : QString) :
    view.text (source ++ back) = view.text source := by
  rw [text, text, QString.midN, QString.midN, ← List.drop_take, ← List.drop_take, List.take_append_of_le_length inside]

end QStringView

/-! ## The link -/

theorem splitProtocol_shift {source link : QString} (n : Nat)
    (shown : text ⟨n, n + link.length⟩ source = link) :
    splitProtocol source ⟨n, n + link.length⟩ =
      ((splitProtocol link ⟨0, link.length⟩).1.shift n, (splitProtocol link ⟨0, link.length⟩).2.shift n) := by
  unfold splitProtocol
  rw [shown, text_whole]
  simp only
  split
  · generalize (if (QString.mid link 4).head? = some (u 's') ∨ (QString.mid link 4).head? = some (u 'S') then 5
      else 4) = consumed
    split
    · simp [shift, Nat.add_assoc]
    · rfl
  · rfl

section
variable (unicodeDigit : QChar → Bool) (toCaseFolded : QString → QString) (tlds : List QString)

/-- What was cut off is taken back up to the last parenthesis that closes one of the rest. -/
def extend (link back : QString) (parsed : Parsed) : Parsed :=
  if back ≠ [] ∧ parsed.rest.text link ≠ [] then
    let lastClose := scanParentheses ((link ++ back).mid parsed.rest.start) parsed.rest.start 0 link.length
    { parsed with
      rest := ⟨parsed.rest.start, max parsed.rest.stop lastClose⟩
      link := ⟨parsed.link.start, max parsed.link.stop lastClose⟩ }
  else parsed

def shiftParsed (n : Nat) (parsed : Parsed) : Parsed :=
  ⟨parsed.protocol.shift n, parsed.host.shift n, parsed.rest.shift n, parsed.link.shift n⟩

theorem scanParentheses_shift (n : Nat) (s : QString) (it nestingLevel lastClose : Nat) :
    scanParentheses s (n + it) nestingLevel (n + lastClose) = n + scanParentheses s it nestingLevel lastClose := by
  induction s generalizing it nestingLevel lastClose with
  | nil => rfl
  | cons c more ih =>
    unfold scanParentheses
    split
    · exact ih (it + 1) (nestingLevel + 1) lastClose
    · split
      · split
        · exact ih (it + 1) (nestingLevel - 1) (it + 1)
        · exact ih (it + 1) (nestingLevel - 1) lastClose
      · exact ih (it + 1) nestingLevel lastClose

theorem strip_whole {link back : QString} (begins : Stops ignoredAtStart (link ++ back))
    (ends : Stops ignoredAtEnd link.reverse) : strip link ⟨0, link.length⟩ = ⟨0, link.length⟩ := by
  have alone : Stops ignoredAtStart link := by
    cases link with
    | nil => exact .nil
    | cons c link => exact stops_cons.mpr (stops_cons.mp begins)
  have stripped := @strip_parts [] link [] rfl (by simpa using alone) ends rfl
  simpa using stripped

/-- The parser works on the link between the ignored ends. -/
theorem parse_parts {front link back : QString} (ignoredFront : front.all ignoredAtStart = true)
    (begins : Stops ignoredAtStart (link ++ back)) (ends : Stops ignoredAtEnd link.reverse)
    (ignoredBack : back.all ignoredAtEnd = true) :
    parse unicodeDigit toCaseFolded tlds (front ++ (link ++ back)) =
      (parse unicodeDigit toCaseFolded tlds link).map fun parsed => shiftParsed front.length (extend link back parsed) := by
  unfold parse
  rw [strip_parts ignoredFront begins ends ignoredBack, strip_whole begins ends]
  simp only
  rw [splitProtocol_shift front.length (text_between front link back)]
  obtain ⟨middle, splits, -, inside, -⟩ := @splitProtocol_spec link ⟨0, link.length⟩ (Nat.zero_le _) (Nat.le_refl _)
  rw [splits]
  have toEnd (start : Nat) : text ⟨start, link.length⟩ (link ++ back) = text ⟨start, link.length⟩ link :=
    text_prefix (Nat.le_refl _) back
  simp only [text_shift, toEnd]
  cases extraction : extractHost unicodeDigit (text ⟨middle, link.length⟩ link) 0 {} with
  | none => rfl
  | some result =>
    obtain ⟨state, i⟩ := result
    obtain ⟨host, extracted⟩ := extractHost_spec extraction
    have fits : middle + i ≤ link.length := extracted.fits inside (Nat.le_refl _)
    have hostView : (⟨(shift ⟨middle, link.length⟩ front.length).start,
        (shift ⟨middle, link.length⟩ front.length).start + i⟩ : QStringView) = shift ⟨middle, middle + i⟩ front.length := by
      simp [shift, Nat.add_assoc]
    have restView : (⟨(shift ⟨middle, link.length⟩ front.length).start + i,
        (shift ⟨middle, link.length⟩ front.length).stop⟩ : QStringView) =
          shift ⟨middle + i, link.length⟩ front.length := by
      simp [shift, Nat.add_assoc]
    have hostText : text ⟨middle, middle + i⟩ (link ++ back) = text ⟨middle, middle + i⟩ link := text_prefix fits back
    simp only [hostView, restView, text_shift, hostText, toEnd]
    split
    · rfl
    · split
      · have cut : front.length + link.length ≠ (front ++ (link ++ back)).length ↔ back ≠ [] := by
          rw [List.length_append, List.length_append, ← List.length_pos_iff]
          omega
        have scanned : (front ++ (link ++ back)).mid (front.length + (middle + i)) = (link ++ back).mid (middle + i) := by
          rw [QString.mid, QString.mid, ← List.drop_drop, List.drop_left]
        have whole : ¬ (link.length ≠ link.length ∧ text ⟨middle + i, link.length⟩ link ≠ []) :=
          fun differ => differ.1 rfl
        rw [if_neg whole, Option.map_some, extend]
        by_cases taken : back ≠ [] ∧ text ⟨middle + i, link.length⟩ link ≠ []
        · rw [if_pos ⟨cut.mpr taken.1, taken.2⟩, if_pos taken]
          simp only [shift, shiftParsed, scanned, scanParentheses_shift, Nat.add_max_add_left, Nat.add_assoc, Nat.add_zero]
        · rw [if_neg (fun both => taken ⟨cut.mp both.1, both.2⟩), if_neg taken]
          rfl
      · rfl

/-- The parts of a link that ends at bound. -/
def upTo (middle behind bound : Nat) : Parsed := ⟨⟨0, middle⟩, ⟨middle, behind⟩, ⟨behind, bound⟩, ⟨0, bound⟩⟩

/-- A link without ignored ends is the link of its own, and its parts lie next to each other. -/
theorem parse_whole {link back : QString} (begins : Stops ignoredAtStart (link ++ back))
    (ends : Stops ignoredAtEnd link.reverse) {parsed : Parsed}
    (found : parse unicodeDigit toCaseFolded tlds link = some parsed) :
    ∃ middle behind, middle ≤ behind ∧ behind ≤ link.length ∧
      parsed = upTo middle behind link.length := by
  obtain ⟨view, middle, stop, bound, final, accepted⟩ := parse_accepted found
  obtain rfl : view = ⟨0, link.length⟩ := accepted.stripped.trans (strip_whole begins ends)
  obtain ⟨place, splits, -, inside, -⟩ := @splitProtocol_spec link ⟨0, link.length⟩ (Nat.zero_le _) (Nat.le_refl _)
  obtain rfl : middle = place := congrArg (fun parts => parts.1.stop) (accepted.splits.symm.trans splits)
  obtain ⟨host, extracted⟩ := extractHost_spec accepted.extraction
  have fits : middle + stop ≤ link.length := extracted.fits inside (Nat.le_refl _)
  have whole : bound = link.length := by
    rcases accepted.extended with same | ⟨-, far⟩
    · exact same
    · have close : scanParentheses (link.mid (middle + stop)) (middle + stop) 0 link.length ≤ link.length := by
        apply scanParentheses_le (Nat.le_refl _)
        rw [QString.mid, List.length_drop]
        omega
      exact far.trans (Nat.max_eq_left close)
  refine ⟨middle, middle + stop, Nat.le_add_right _ _, fits, ?_⟩
  rw [accepted.parts, whole]
  rfl

/-! ## Parentheses -/

theorem scanParentheses_later (s : QString) (it nestingLevel lastClose : Nat) :
    scanParentheses s it nestingLevel lastClose = lastClose ∨ it < scanParentheses s it nestingLevel lastClose := by
  induction s generalizing it nestingLevel lastClose with
  | nil => exact .inl rfl
  | cons c more ih =>
    unfold scanParentheses
    split
    · exact (ih (it + 1) (nestingLevel + 1) lastClose).imp_right Nat.lt_of_succ_lt
    · split
      · split
        · rcases ih (it + 1) (nestingLevel - 1) (it + 1) with same | later
          · exact .inr (by omega)
          · exact .inr (Nat.lt_of_succ_lt later)
        · exact (ih (it + 1) (nestingLevel - 1) lastClose).imp_right Nat.lt_of_succ_lt
      · exact (ih (it + 1) nestingLevel lastClose).imp_right Nat.lt_of_succ_lt

/-- What is behind the last parenthesis that counts does not matter. -/
theorem scanParentheses_take (s : QString) (n it nestingLevel lastClose : Nat)
    (within : scanParentheses s it nestingLevel lastClose ≤ it + n) :
    scanParentheses (s.take n) it nestingLevel lastClose = scanParentheses s it nestingLevel lastClose := by
  induction s generalizing n it nestingLevel lastClose with
  | nil => rw [List.take_nil]
  | cons c more ih =>
    cases n with
    | zero =>
      rcases scanParentheses_later (c :: more) it nestingLevel lastClose with same | later
      · rw [same]
        rfl
      · omega
    | succ n =>
      have moved : it + (n + 1) = it + 1 + n := by omega
      rw [moved] at within
      rw [List.take_succ_cons]
      unfold scanParentheses at within ⊢
      split at within
      · next opens =>
        rw [if_pos opens, if_pos opens]
        exact ih n (it + 1) (nestingLevel + 1) lastClose within
      · next opens =>
        rw [if_neg opens]
        split at within
        · next closes =>
          rw [if_neg opens, if_pos closes, if_pos closes]
          exact ih n (it + 1) (nestingLevel - 1) _ within
        · next closes =>
          rw [if_neg opens, if_neg closes, if_neg closes]
          exact ih n (it + 1) nestingLevel lastClose within

/-- The same parentheses are taken back when nothing behind them is left. -/
theorem extend_again {link back : QString} {middle behind : Nat} (inside : behind ≤ link.length) :
    ∃ n, n ≤ back.length ∧ extend link back (upTo middle behind link.length) = upTo middle behind (link.length + n) ∧
      extend link (back.take n) (upTo middle behind link.length) = upTo middle behind (link.length + n) := by
  have none_ : extend link [] (upTo middle behind link.length) = upTo middle behind link.length := by
    rw [extend, if_neg (fun both => both.1 rfl)]
  by_cases taken : back ≠ [] ∧ text ⟨behind, link.length⟩ link ≠ []
  · generalize close : scanParentheses ((link ++ back).mid behind) behind 0 link.length = lastClose
    have extended : extend link back (upTo middle behind link.length) = upTo middle behind (max link.length lastClose) := by
      rw [extend, upTo, if_pos taken]
      simp only [close, upTo]
    have bounded : lastClose ≤ link.length + back.length := by
      rw [← close]
      apply scanParentheses_le (Nat.le_add_right _ _)
      rw [QString.mid, List.length_drop, List.length_append]
      omega
    refine ⟨lastClose - link.length, by omega, by rw [extended, Nat.add_comm, Nat.sub_add_eq_max, Nat.max_comm], ?_⟩
    by_cases short : lastClose ≤ link.length
    · rw [Nat.sub_eq_zero_of_le short, List.take_zero, none_, Nat.add_zero]
    · have some_ : back.take (lastClose - link.length) ≠ [] := by
        rw [Ne, List.take_eq_nil_iff, not_or]
        exact ⟨by omega, taken.1⟩
      have cut : (link ++ back.take (lastClose - link.length)).mid behind =
          ((link ++ back).mid behind).take (lastClose - behind) := by
        rw [QString.mid, QString.mid, ← List.drop_take, ← List.take_length_add_append]
        congr 2
        omega
      have again := scanParentheses_take ((link ++ back).mid behind) (lastClose - behind) behind 0 link.length (by omega)
      rw [extend, if_pos ⟨some_, taken.2⟩]
      simp only [upTo, cut, again, close]
      congr 2
      all_goals omega
  · refine ⟨0, Nat.zero_le _, ?_, none_⟩
    rw [extend, if_neg (by exact taken), Nat.add_zero]

end

/-- The link text of a link that the parser has found is parsed into the same parts. -/
theorem parse_idempotent {unicodeDigit : QChar → Bool} {toCaseFolded : QString → QString} {tlds : List QString}
    {source : QString} {parsed : Parsed} (found : parse unicodeDigit toCaseFolded tlds source = some parsed) :
    ∃ again, parse unicodeDigit toCaseFolded tlds (parsed.link.text source) = some again ∧
      again.protocol.text (parsed.link.text source) = parsed.protocol.text source ∧
      again.host.text (parsed.link.text source) = parsed.host.text source ∧
      again.rest.text (parsed.link.text source) = parsed.rest.text source := by
  obtain ⟨front, link, back, rfl, ignoredFront, ignoredBack, begins, ends⟩ := exists_stripped source
  rw [parse_parts _ _ _ ignoredFront begins ends ignoredBack, Option.map_eq_some_iff] at found
  obtain ⟨whole, found, rfl⟩ := found
  obtain ⟨middle, behind, ordered, inside, rfl⟩ := parse_whole _ _ _ begins ends found
  obtain ⟨n, short, extended, again⟩ := @extend_again link back middle _ inside
  have shown : text ⟨0, link.length + n⟩ (link ++ back) = link ++ back.take n := by
    rw [text, QString.midN, List.drop_zero, Nat.sub_zero, List.take_length_add_append]
  have linkText : (shiftParsed front.length (upTo middle behind (link.length + n))).link.text (front ++ (link ++ back)) =
      link ++ back.take n := (text_shift _ _ _).trans shown
  have read : parse unicodeDigit toCaseFolded tlds (link ++ back.take n) =
      some (shiftParsed 0 (upTo middle behind (link.length + n))) := by
    have ignored : (back.take n).all ignoredAtEnd = true := by
      rw [List.all_eq_true] at ignoredBack ⊢
      exact fun c among => ignoredBack c (List.mem_of_mem_take among)
    have starts : Stops ignoredAtStart (link ++ back.take n) := by
      cases link with
      | nil => cases found
      | cons c link => exact stops_cons.mpr (stops_cons.mp begins)
    have parts := @parse_parts unicodeDigit toCaseFolded tlds [] _ _ rfl starts ends ignored
    rw [found, Option.map_some, again] at parts
    exact parts
  -- nothing that is looked at lies behind the link
  have same {view : QStringView} (within : view.stop ≤ link.length + n) :
      (view.shift 0).text (link ++ back.take n) = (view.shift front.length).text (front ++ (link ++ back)) := by
    have size : (link ++ back.take n).length = link.length + n := by
      rw [List.length_append, List.length_take, Nat.min_eq_left short]
    have rejoined : link ++ back = link ++ back.take n ++ back.drop n := by
      rw [List.append_assoc, List.take_append_drop]
    rw [text_shift, rejoined, text_prefix (Nat.le_trans within (Nat.le_of_eq size.symm))]
    exact text_shift view [] _
  rw [extended, linkText]
  exact ⟨_, read, same (by simp only [upTo]; omega), same (by simp only [upTo]; omega), same (Nat.le_refl _)⟩

theorem parse_idempotent_com :
    ∃ again, parse isDigit (fun s => s.map asciiLower) [qs "com"] (qs "a.com/(b)") = some again ∧
      again.protocol.text (qs "a.com/(b)") = [] ∧ again.host.text (qs "a.com/(b)") = qs "a.com" ∧
      again.rest.text (qs "a.com/(b)") = qs "/(b)" :=
  @parse_idempotent isDigit (fun s => s.map asciiLower) [qs "com"] (qs "(a.com/(b)).")
    ⟨⟨1, 1⟩, ⟨1, 6⟩, ⟨6, 10⟩, ⟨1, 10⟩⟩ (by decide)

end Forserino.Links
