import Mathlib.Order.Nat
import Forserino.Foundation.Spans
import Forserino.Links.LinkParser

/-! What the link parser accepts: the parts of a link lie next to each other in the word,
and each of them has the form that its name says.
-/

set_option autoImplicit false

namespace Forserino.Links

open Forserino.Qt Forserino.Foundation

/-! ## Views -/

namespace QStringView

variable (source : QString)

theorem text_append {a b c : Nat} (first : a ≤ b) (second : b ≤ c) :
    text ⟨a, c⟩ source = text ⟨a, b⟩ source ++ text ⟨b, c⟩ source := by
  have widths : c - a = (b - a) + (c - b) := by omega
  have meets : a + (b - a) = b := by omega
  unfold text QString.midN
  simp only
  rw [widths, List.take_add, List.drop_drop, meets]

theorem text_empty (a : Nat) : text ⟨a, a⟩ source = [] := by
  unfold text QString.midN
  simp

theorem text_whole : text ⟨0, source.length⟩ source = source := by
  unfold text QString.midN
  simp

variable {source}

theorem length_text {view : QStringView} (inside : view.stop ≤ source.length) :
    (view.text source).length = view.stop - view.start := by
  unfold text QString.midN
  rw [List.length_take, List.length_drop]
  omega

/-- A view is a contiguous part of its source. -/
theorem contiguous {view : QStringView} (ordered : view.start ≤ view.stop) (inside : view.stop ≤ source.length) :
    source = source.take view.start ++ view.text source ++ source.drop view.stop := by
  have whole := text_whole source
  rw [text_append source (Nat.zero_le view.start) (Nat.le_trans ordered inside), text_append source ordered inside] at whole
  have front : text ⟨0, view.start⟩ source = source.take view.start := by
    unfold text QString.midN
    simp
  have back : text ⟨view.stop, source.length⟩ source = source.drop view.stop := by
    unfold text QString.midN
    rw [List.take_of_length_le]
    simp
  rw [front, back] at whole
  rw [List.append_assoc]
  exact whole.symm

/-- The first units of a view. -/
theorem take_text {view : QStringView} {n : Nat} (short : view.start + n ≤ view.stop) :
    (view.text source).take n = text ⟨view.start, view.start + n⟩ source := by
  unfold text QString.midN
  rw [List.take_take]
  congr 1
  simp only
  omega

theorem text_between (front middle back : QString) :
    text ⟨front.length, front.length + middle.length⟩ (front ++ (middle ++ back)) = middle := by
  rw [text, QString.midN, List.drop_left, Nat.add_sub_cancel_left, List.take_left]

end QStringView

open QStringView

/-! ## The ends of the link -/

/-- What is ignored at either end is stripped, and no more. -/
theorem strip_parts {front link back : QString} (ignoredFront : front.all ignoredAtStart = true)
    (begins : Stops ignoredAtStart (link ++ back)) (ends : Stops ignoredAtEnd link.reverse)
    (ignoredBack : back.all ignoredAtEnd = true) :
    strip (front ++ (link ++ back)) ⟨0, (front ++ (link ++ back)).length⟩ =
      ⟨front.length, front.length + link.length⟩ := by
  have cut : (back.reverse ++ link.reverse).takeWhile ignoredAtEnd = back.reverse :=
    takeWhile_stops (by rwa [List.all_reverse]) ends
  have behind := text_between front (link ++ back) []
  rw [List.append_nil, ← List.length_append] at behind
  unfold strip
  simp only [text_whole, takeWhile_stops ignoredFront begins, Nat.zero_add, behind, List.reverse_append, cut]
  simp only [List.length_append, List.length_reverse, QStringView.mk.injEq, true_and]
  omega

/-- Every word has a link between its ignored ends. -/
theorem exists_stripped (source : QString) :
    ∃ front link back, source = front ++ (link ++ back) ∧ front.all ignoredAtStart = true ∧
      back.all ignoredAtEnd = true ∧ Stops ignoredAtStart (link ++ back) ∧ Stops ignoredAtEnd link.reverse := by
  obtain ⟨front, behind, rfl, ignoredFront, begins⟩ := exists_span ignoredAtStart source
  obtain ⟨back, link, shape, ignoredBack, ends⟩ := exists_span ignoredAtEnd behind.reverse
  have whole : behind = link.reverse ++ back.reverse := by
    rw [← List.reverse_append, ← shape, List.reverse_reverse]
  refine ⟨front, link.reverse, back.reverse, by rw [whole], ignoredFront, ?_, whole ▸ begins, ?_⟩
  · rwa [List.all_reverse]
  · rwa [List.reverse_reverse]

theorem strip_inside (source : QString) :
    (strip source ⟨0, source.length⟩).start ≤ (strip source ⟨0, source.length⟩).stop ∧
      (strip source ⟨0, source.length⟩).stop ≤ source.length := by
  obtain ⟨front, link, back, rfl, ignoredFront, ignoredBack, begins, ends⟩ := exists_stripped source
  rw [strip_parts ignoredFront begins ends ignoredBack]
  simp only [List.length_append]
  omega

/-- The case-insensitive forms of a protocol. -/
def IsProtocol (protocol : QString) : Prop :=
  protocol = [] ∨ protocol.map asciiLower = qs "http://" ∨ protocol.map asciiLower = qs "https://"

theorem startsWith_iff {s start : QString} : QString.startsWith s start = true ↔ start <+: s := List.isPrefixOf_iff_prefix

/-- The protocol and the remaining text lie next to each other in the link. -/
theorem splitProtocol_spec {source : QString} {link : QStringView} (ordered : link.start ≤ link.stop)
    (inside : link.stop ≤ source.length) :
    ∃ middle, splitProtocol source link = (⟨link.start, middle⟩, ⟨middle, link.stop⟩) ∧ link.start ≤ middle ∧
      middle ≤ link.stop ∧ IsProtocol (text ⟨link.start, middle⟩ source) := by
  -- without a protocol the whole link remains
  have plain : ∃ middle, ((⟨link.start, link.start⟩, link) : QStringView × QStringView) =
      (⟨link.start, middle⟩, ⟨middle, link.stop⟩) ∧ link.start ≤ middle ∧ middle ≤ link.stop ∧
      IsProtocol (text ⟨link.start, middle⟩ source) :=
    ⟨link.start, rfl, le_rfl, ordered, Or.inl (text_empty source _)⟩
  unfold splitProtocol
  simp only
  split
  · next http =>
    obtain ⟨http, long⟩ := http
    have length := length_text inside
    obtain ⟨consumed, same, shape⟩ : ∃ consumed, (if ((link.text source).mid 4).head? = some (u 's') ∨
        ((link.text source).mid 4).head? = some (u 'S') then 5 else 4) = consumed ∧
        ((link.text source).take consumed).map asciiLower ++ qs "://" ∈ [qs "http://", qs "https://"] ∧ consumed ≤ 5 := by
      by_cases secure : ((link.text source).mid 4).head? = some (u 's') ∨ ((link.text source).mid 4).head? = some (u 'S')
      · refine ⟨5, if_pos secure, ?_, le_rfl⟩
        have five : (link.text source).take 5 = (link.text source).take 4 ++ ((link.text source).mid 4).head?.toList := by
          rw [List.take_add (i := 4) (j := 1), List.take_one]
          rfl
        rw [five, List.map_append, http]
        rcases secure with letter | letter
        · rw [letter]
          decide
        · rw [letter]
          decide
      · refine ⟨4, if_neg secure, ?_, by decide⟩
        rw [http]
        decide
    rw [same]
    split
    · next slashes =>
      obtain ⟨tail, whole⟩ := startsWith_iff.mp slashes
      have behind : ((link.text source).mid consumed).length = 3 + tail.length := by
        rw [← whole, List.length_append]
        rfl
      rw [QString.mid, List.length_drop, length] at behind
      have fits : link.start + (consumed + 3) ≤ link.stop := by omega
      refine ⟨link.start + consumed + 3, rfl, by omega, by omega, ?_⟩
      have protocol : text ⟨link.start, link.start + consumed + 3⟩ source = (link.text source).take consumed ++ qs "://" := by
        rw [Nat.add_assoc, ← take_text fits, List.take_add]
        congr 1
        change ((link.text source).mid consumed).take 3 = _
        rw [← whole]
        exact List.take_left' rfl
      right
      rw [protocol, List.map_append]
      have forms := List.mem_cons.mp shape.1
      rw [List.mem_singleton] at forms
      exact forms
    · exact plain
  · exact plain

/-! ## The host -/

/-- No dot stands at the start, if a dot was before, and none behind another one. -/
def Spaced : Bool → QString → Prop
  | _, [] => True
  | lastWasDot, c :: more => if c = u '.' then lastWasDot = false ∧ Spaced true more else Spaced false more

/-- The last label of a host. -/
def lastLabel (host : QString) : QString := ((host.split (u '.')).getLast?).getD []

theorem split_cons_dot (more : QString) : QString.split (u '.' :: more) (u '.') = [] :: more.split (u '.') := by
  simp [QString.split, List.splitOn_cons_eq_if_modifyHead]

theorem split_cons_other {c : QChar} (other : c ≠ u '.') (more : QString) :
    QString.split (c :: more) (u '.') = (more.split (u '.')).modifyHead (c :: ·) := by
  simp [QString.split, List.splitOn_cons_eq_if_modifyHead, other]

theorem mem_of_mem_split {host label : QString} (among : label ∈ host.split (u '.')) {c : QChar} (inside : c ∈ label) :
    c ∈ host := by
  induction host generalizing label with
  | nil =>
    rw [List.mem_singleton.mp among] at inside
    exact inside
  | cons d more ih =>
    by_cases dot : d = u '.'
    · rw [dot, split_cons_dot] at among
      rcases List.mem_cons.mp among with rfl | later
      · cases inside
      · exact List.mem_cons_of_mem d (ih later inside)
    · obtain ⟨first, others, parts⟩ := List.exists_cons_of_ne_nil (split_ne_nil (u '.') more)
      rw [split_cons_other dot, parts, List.modifyHead_cons] at among
      rcases List.mem_cons.mp among with rfl | later
      · rcases List.mem_cons.mp inside with rfl | behind
        · exact List.mem_cons_self
        · exact List.mem_cons_of_mem d (ih (parts ▸ List.mem_cons_self) behind)
      · exact List.mem_cons_of_mem d (ih (parts ▸ List.mem_cons_of_mem first later) inside)

/-- Every label but the last is not empty. -/
theorem Spaced.labels {host : QString} {lastWasDot : Bool} (spaced : Spaced lastWasDot host) :
    ∃ first others, host.split (u '.') = first :: others ∧ (∀ label ∈ others.dropLast, label ≠ []) ∧
      (lastWasDot = true → others ≠ [] → first ≠ []) := by
  induction host generalizing lastWasDot with
  | nil => exact ⟨[], [], rfl, fun _ among => (List.not_mem_nil among).elim, fun _ absurd => absurd.elim rfl⟩
  | cons c more ih =>
    by_cases dot : c = u '.'
    · subst dot
      rw [Spaced, if_pos rfl] at spaced
      obtain ⟨first, others, parts, inner, head⟩ := ih spaced.2
      refine ⟨[], first :: others, ?_, ?_, ?_⟩
      · rw [split_cons_dot, parts]
      · intro label among
        cases others with
        | nil => cases among
        | cons second rest =>
          rw [List.dropLast_cons_cons] at among
          rcases List.mem_cons.mp among with rfl | later
          · exact head rfl (List.cons_ne_nil second rest)
          · exact inner label later
      · intro wasDot
        rw [spaced.1] at wasDot
        cases wasDot
    · rw [Spaced, if_neg dot] at spaced
      obtain ⟨first, others, parts, inner, -⟩ := ih spaced
      refine ⟨c :: first, others, ?_, inner, fun _ _ => List.cons_ne_nil c first⟩
      rw [split_cons_other dot, parts]
      rfl

theorem lastLabel_cons_dot (more : QString) : lastLabel (u '.' :: more) = lastLabel more := by
  unfold lastLabel
  rw [split_cons_dot]
  obtain ⟨first, others, parts⟩ := List.exists_cons_of_ne_nil (split_ne_nil (u '.') more)
  rw [parts, List.getLast?_cons_cons]

/-- A unit in front of the last dot does not change the last label. -/
theorem lastLabel_cons_of_mem (c : QChar) {more : QString} (dotted : u '.' ∈ more) : lastLabel (c :: more) = lastLabel more := by
  by_cases dot : c = u '.'
  · rw [dot, lastLabel_cons_dot]
  · unfold lastLabel
    rw [split_cons_other dot]
    obtain ⟨first, others, parts⟩ := List.exists_cons_of_ne_nil (split_ne_nil (u '.') more)
    cases others with
    | nil =>
      -- a text with a single part has no dot
      have whole := intercalate_split (u '.') more
      rw [parts, List.intercalate_singleton] at whole
      have free := split_plain (u '.') more first (by rw [parts]; exact List.mem_singleton.mpr rfl)
      exact absurd (whole ▸ dotted) free
    | cons second rest =>
      rw [parts]
      simp only [List.modifyHead_cons, List.getLast?_cons_cons]

theorem lastLabel_free {host : QString} (free : u '.' ∉ host) : lastLabel host = host := by
  rw [lastLabel, split_free _ _ free]
  rfl

/-- What the loop has found out about the part of the text that it took for the host. -/
structure Extracted (remaining : QString) (i : Nat) (state final : HostState) (stop : Nat) (host : QString) : Prop where
  place : host <+: remaining
  stop : stop = i + host.length
  valid : ∀ c ∈ host, isValidDomainChar c = true
  spaced : Spaced state.lastWasDot host
  behind : ∀ c ∈ (remaining.drop host.length).head?, c = u ':' ∨ endsHost c = true
  free : u '.' ∉ host → final.lastDotPos = state.lastDotPos
  dotted : u '.' ∈ host → final.lastDotPos = (i : Int) + host.length - (lastLabel host).length - 1 ∧
    (lastLabel host).length + 1 ≤ host.length

theorem Extracted.nil {remaining : QString} {i : Nat} {state final : HostState}
    (behind : ∀ c ∈ remaining.head?, c = u ':' ∨ endsHost c = true) (same : final.lastDotPos = state.lastDotPos) :
    Extracted remaining i state final i [] where
  place := List.nil_prefix
  stop := rfl
  valid := fun _ among => (List.not_mem_nil among).elim
  spaced := trivial
  behind := behind
  free := fun _ => same
  dotted := fun among => (List.not_mem_nil among).elim

theorem extractHost_spec {unicodeDigit : QChar → Bool} {remaining : QString} {i stop : Nat} {state final : HostState}
    (extracted : extractHost unicodeDigit remaining i state = some (final, stop)) :
    ∃ host, Extracted remaining i state final stop host := by
  induction remaining generalizing i state with
  | nil =>
    cases extracted
    exact ⟨[], .nil (fun _ among => nomatch among) rfl⟩
  | cons c more ih =>
    rw [extractHost] at extracted
    split at extracted
    · next dot =>
      subst dot
      split at extracted
      · cases extracted
      · next noDot =>
        obtain ⟨host, inner⟩ := ih extracted
        refine ⟨u '.' :: host, ?_⟩
        constructor
        · exact List.cons_prefix_cons.mpr ⟨rfl, inner.place⟩
        · rw [inner.stop, List.length_cons]
          omega
        · exact List.forall_mem_cons.mpr ⟨by decide, inner.valid⟩
        · rw [Spaced, if_pos rfl]
          exact ⟨Bool.eq_false_iff.mpr noDot, inner.spaced⟩
        · exact inner.behind
        · exact fun free => (free List.mem_cons_self).elim
        · intro _
          -- the last label is that of the rest, or all of it behind this dot
          rw [lastLabel_cons_dot, List.length_cons]
          by_cases more : u '.' ∈ host
          · obtain ⟨place, short⟩ := inner.dotted more
            omega
          · have place := inner.free more
            rw [lastLabel_free more]
            simp only at place
            omega
    · next dot =>
      simp only at extracted
      split at extracted
      · next colon =>
        split at extracted
        · cases extracted
          refine ⟨[], .nil ?_ rfl⟩
          intro d among
          exact Or.inl ((Option.some.inj among).symm.trans colon)
        · cases extracted
      · split at extracted
        · next ends =>
          cases extracted
          refine ⟨[], .nil ?_ rfl⟩
          intro d among
          exact Or.inr (Option.some.inj among ▸ ends)
        · split at extracted
          · next valid =>
            obtain ⟨host, inner⟩ := ih extracted
            -- a valid character goes to the label that it stands in
            have notDot : u '.' ≠ c := fun same => dot same.symm
            refine ⟨c :: host, ?_⟩
            constructor
            · exact List.cons_prefix_cons.mpr ⟨rfl, inner.place⟩
            · rw [inner.stop, List.length_cons]
              omega
            · exact List.forall_mem_cons.mpr ⟨valid, inner.valid⟩
            · rw [Spaced, if_neg dot]
              exact inner.spaced
            · exact inner.behind
            · intro free
              exact inner.free fun among => free (List.mem_cons_of_mem c among)
            · intro among
              have inHost : u '.' ∈ host := (List.mem_cons.mp among).resolve_left notDot
              obtain ⟨place, short⟩ := inner.dotted inHost
              rw [lastLabel_cons_of_mem c inHost, List.length_cons]
              omega
          · cases extracted

theorem lastLabel_suffix (host : QString) : lastLabel host <:+ host := by
  induction host with
  | nil => exact List.suffix_refl []
  | cons c more ih =>
    by_cases dotted : u '.' ∈ more
    · rw [lastLabel_cons_of_mem c dotted]
      exact ih.trans (List.suffix_cons c more)
    · by_cases dot : c = u '.'
      · rw [dot, lastLabel_cons_dot, lastLabel_free dotted]
        exact List.suffix_cons _ more
      · have whole := lastLabel_free fun among => (List.mem_cons.mp among).elim (fun same => dot same.symm) dotted
        exact ⟨[], whole⟩

/-- The text behind the last dot is the last label. -/
theorem Extracted.tld {remaining : QString} {state final : HostState} {stop : Nat} {host : QString}
    (extracted : Extracted remaining 0 state final stop host) (dotted : u '.' ∈ host) :
    host.mid (final.lastDotPos + 1).toNat = lastLabel host := by
  obtain ⟨place, short⟩ := extracted.dotted dotted
  have position : (final.lastDotPos + 1).toNat = host.length - (lastLabel host).length := by omega
  rw [QString.mid, position]
  exact (List.suffix_iff_eq_drop.mp (lastLabel_suffix host)).symm

/-! ## Addresses -/

/-- One to three digits, with a value below 256. -/
structure Octet (label : QString) : Prop where
  nonempty : label ≠ []
  digits : ∀ c ∈ label, isDigit c = true
  short : label.length ≤ 3
  value : decimalValue 0 label < 256

structure DottedAddress (host : QString) : Prop where
  four : (host.split (u '.')).length = 4
  octets : ∀ label ∈ host.split (u '.'), Octet label

theorem ipv4Loop_spec {s : QString} {sectionValue octetNumber sectionDigits : Nat} {lastWasDot : Bool}
    (valid : ipv4Loop s sectionValue octetNumber sectionDigits lastWasDot = true) (small : sectionValue < 256)
    (short : sectionDigits ≤ 3) :
    ∃ first others, s.split (u '.') = first :: others ∧ octetNumber + others.length = 3 ∧
      (∀ c ∈ first, isDigit c = true) ∧ sectionDigits + first.length ≤ 3 ∧ decimalValue sectionValue first < 256 ∧
      (lastWasDot = true → first ≠ []) ∧ ∀ label ∈ others, Octet label := by
  induction s generalizing sectionValue octetNumber sectionDigits lastWasDot with
  | nil =>
    rw [ipv4Loop, Bool.and_eq_true, beq_iff_eq, Bool.not_eq_true'] at valid
    refine ⟨[], [], rfl, valid.1, fun _ among => (List.not_mem_nil among).elim, short, small, ?_,
      fun _ among => (List.not_mem_nil among).elim⟩
    intro wasDot
    rw [valid.2] at wasDot
    cases wasDot
  | cons current more ih =>
    rw [ipv4Loop] at valid
    split at valid
    · next dot =>
      subst dot
      split at valid
      · cases valid
      · next proper =>
        obtain ⟨first, others, parts, count, digits, fits, value, nonempty, octets⟩ := ih valid (by decide) (by decide)
        rw [Bool.or_eq_true, not_or, Bool.not_eq_true] at proper
        refine ⟨[], first :: others, ?_, ?_, fun _ among => (List.not_mem_nil among).elim, short, small, ?_, ?_⟩
        · rw [split_cons_dot, parts]
        · rw [List.length_cons]
          omega
        · intro wasDot
          rw [proper.1] at wasDot
          cases wasDot
        · exact List.forall_mem_cons.mpr ⟨⟨nonempty rfl, digits, by omega, value⟩, octets⟩
    · next dot =>
      split at valid
      · cases valid
      · next digit =>
        simp only at valid
        split at valid
        · cases valid
        · next bounds =>
          simp only [Bool.or_eq_true, decide_eq_true_eq, not_or, not_le, not_lt] at bounds
          obtain ⟨first, others, parts, count, digits, fits, value, -, octets⟩ := ih valid bounds.1 bounds.2
          refine ⟨current :: first, others, ?_, count, ?_, ?_, ?_, fun _ => List.cons_ne_nil current first, octets⟩
          · rw [split_cons_other dot, parts]
            rfl
          · exact List.forall_mem_cons.mpr ⟨by simpa using digit, digits⟩
          · rw [List.length_cons]
            omega
          · rw [Nat.mul_comm] at value
            exact value

/-- The scanner of addresses accepts four octets. -/
theorem isValidIpv4_spec {host : QString} (valid : isValidIpv4 host = true) : DottedAddress host := by
  obtain ⟨first, others, parts, count, digits, fits, value, nonempty, octets⟩ :=
    ipv4Loop_spec valid (by decide) (by decide)
  constructor
  · rw [parts, List.length_cons]
    omega
  · rw [parts]
    exact List.forall_mem_cons.mpr ⟨⟨nonempty rfl, digits, by omega, value⟩, octets⟩

/-! ## The parser -/

theorem scanParentheses_le {s : QString} {it nestingLevel lastClose bound : Nat} (inside : lastClose ≤ bound)
    (ends : it + s.length ≤ bound) : scanParentheses s it nestingLevel lastClose ≤ bound := by
  induction s generalizing it nestingLevel lastClose with
  | nil => exact inside
  | cons c more ih =>
    rw [List.length_cons] at ends
    rw [scanParentheses]
    split
    · exact ih inside (by omega)
    · split
      · apply ih _ (by omega)
        split
        · omega
        · exact inside
      · exact ih inside (by omega)

section
variable (toCaseFolded : QString → QString) (tlds : List QString)

/-- What is promised of a link. -/
structure WellFormed (source : QString) (parsed : Parsed) : Prop where
  joined : parsed.link.text source =
    parsed.protocol.text source ++ parsed.host.text source ++ parsed.rest.text source
  contiguous : ∃ before behind, source = before ++ parsed.link.text source ++ behind
  protocol : IsProtocol (parsed.protocol.text source)
  twoLabels : 2 ≤ ((parsed.host.text source).split (u '.')).length
  labels : ∀ label ∈ (parsed.host.text source).split (u '.'), label ≠ [] ∧
    ∀ c ∈ label, isValidDomainChar c = true ∧ c ≠ u '.'
  ending : (∃ entry ∈ tlds, toCaseFolded entry = toCaseFolded (lastLabel (parsed.host.text source))) ∨
    DottedAddress (parsed.host.text source)
  rest : ∀ c ∈ (parsed.rest.text source).head?, c ∈ qs ":/?#"

variable {toCaseFolded tlds}

theorem isValidTld_iff {tld : QString} :
    isValidTld toCaseFolded tlds tld = true ↔ ∃ entry ∈ tlds, toCaseFolded entry = toCaseFolded tld := by
  simp [isValidTld]

/-- A host that is not left at a dot, and ends in a known label or is an address, has proper labels. -/
theorem Extracted.labels {remaining : QString} {final : HostState} {stop : Nat} {host : QString}
    (extracted : Extracted remaining 0 {} final stop host) (dotted : u '.' ∈ host) (last : lastLabel host ≠ []) :
    2 ≤ (host.split (u '.')).length ∧
      ∀ label ∈ host.split (u '.'), label ≠ [] ∧ ∀ c ∈ label, isValidDomainChar c = true ∧ c ≠ u '.' := by
  obtain ⟨first, others, parts, inner, head⟩ := extracted.spaced.labels
  have several : others ≠ [] := by
    rintro rfl
    have whole := intercalate_split (u '.') host
    rw [parts, List.intercalate_singleton] at whole
    have free := split_plain (u '.') host first (by rw [parts]; exact List.mem_singleton.mpr rfl)
    exact free (whole ▸ dotted)
  have ends : others.getLast several ≠ [] := by
    unfold lastLabel at last
    rw [parts, List.getLast?_cons, List.getLast?_eq_getLast_of_ne_nil several] at last
    exact last
  constructor
  · rw [parts, List.length_cons]
    have := List.length_pos_of_ne_nil several
    omega
  · intro label among
    constructor
    · rw [parts] at among
      rcases List.mem_cons.mp among with rfl | later
      · exact head rfl several
      · rw [← List.dropLast_concat_getLast several] at later
        rcases List.mem_append.mp later with early | isLast
        · exact inner label early
        · rw [List.mem_singleton.mp isLast]
          exact ends
    · intro c inside
      constructor
      · exact extracted.valid c (mem_of_mem_split among inside)
      · rintro rfl
        exact split_plain (u '.') host label among inside

/-- The host ends before the text does. -/
theorem Extracted.fits {source host : QString} {middle ending stop : Nat} {final : HostState}
    (extracted : Extracted (text ⟨middle, ending⟩ source) 0 {} final stop host) (ordered : middle ≤ ending)
    (inside : ending ≤ source.length) : middle + stop ≤ ending := by
  have size := extracted.stop
  have short := extracted.place.length_le
  rw [length_text inside] at short
  simp only at short
  omega

/-- The view over the host shows the host. -/
theorem Extracted.hostText {source host : QString} {middle ending stop : Nat} {final : HostState}
    (extracted : Extracted (text ⟨middle, ending⟩ source) 0 {} final stop host) (ordered : middle ≤ ending)
    (inside : ending ≤ source.length) : text ⟨middle, middle + stop⟩ source = host := by
  have fits := extracted.fits ordered inside
  have same : middle + host.length = middle + stop := by rw [extracted.stop, Nat.zero_add]
  have taken := @take_text source ⟨middle, ending⟩ host.length (same.trans_le fits)
  simp only [same] at taken
  exact taken.symm.trans (List.prefix_iff_eq_take.mp extracted.place).symm

/-- The parts of a link between four positions of the word. -/
theorem assemble {source host : QString} {start middle behind ending bound : Nat} {final : HostState} {stop : Nat}
    (protocol : IsProtocol (text ⟨start, middle⟩ source))
    (extracted : Extracted (text ⟨middle, ending⟩ source) 0 {} final stop host)
    (first : start ≤ middle) (second : middle ≤ ending) (inside : ending ≤ bound) (bounded : bound ≤ source.length)
    (place : behind = middle + stop) (extends_ : bound = ending ∨ text ⟨behind, ending⟩ source ≠ [])
    (dotted : u '.' ∈ host) (last : lastLabel host ≠ [])
    (ends : (∃ entry ∈ tlds, toCaseFolded entry = toCaseFolded (lastLabel host)) ∨ DottedAddress host) :
    WellFormed toCaseFolded tlds source ⟨⟨start, middle⟩, ⟨middle, behind⟩, ⟨behind, bound⟩, ⟨start, bound⟩⟩ := by
  have size := extracted.stop
  have third : behind ≤ ending := by
    rw [place]
    exact extracted.fits second (inside.trans bounded)
  have hostText : text ⟨middle, behind⟩ source = host := by
    rw [place]
    exact extracted.hostText second (inside.trans bounded)
  have restText : text ⟨behind, ending⟩ source = (text ⟨middle, ending⟩ source).drop host.length := by
    rw [text_append source (by omega : middle ≤ behind) third, hostText, List.drop_left]
  obtain ⟨twoLabels, labels⟩ := extracted.labels dotted last
  constructor
  · simp only
    rw [text_append source first (by omega : middle ≤ bound), text_append source (by omega : middle ≤ behind) (by omega),
      List.append_assoc]
  · exact ⟨_, _, contiguous (by simp only; omega) bounded⟩
  · exact protocol
  · simp only [hostText]
    exact twoLabels
  · simp only [hostText]
    exact labels
  · simp only [hostText]
    exact ends
  · intro c among
    have head : c ∈ (text ⟨behind, ending⟩ source).head? := by
      simp only at among
      rw [text_append source third inside, List.head?_append] at among
      rcases extends_ with same | nonempty
      · subst same
        rw [text_empty, List.head?_nil, Option.or_none] at among
        exact among
      · obtain ⟨d, rest, shape⟩ := List.exists_cons_of_ne_nil nonempty
        rw [shape] at among ⊢
        exact among
    rw [restText] at head
    rcases extracted.behind c head with colon | ends
    · rw [colon]
      decide
    · simp only [endsHost, Bool.or_eq_true, decide_eq_true_eq] at ends
      rcases ends with (rfl | rfl) | rfl <;> decide

/-- What the parser went through for a link: the link without its ends, where the remaining text
begins, how far the host goes in it, and where the rest ends. -/
structure Accepted (unicodeDigit : QChar → Bool) (toCaseFolded : QString → QString) (tlds : List QString)
    (source : QString) (parsed : Parsed) (link : QStringView) (middle stop bound : Nat) (final : HostState) : Prop where
  stripped : link = strip source ⟨0, source.length⟩
  splits : splitProtocol source link = (⟨link.start, middle⟩, ⟨middle, link.stop⟩)
  extraction : extractHost unicodeDigit (text ⟨middle, link.stop⟩ source) 0 {} = some (final, stop)
  dotted : (final.lastWasDot || final.lastDotPos ≤ 0) = false
  ending : ((final.nDots == 3 && isValidIpv4 (text ⟨middle, middle + stop⟩ source)) ||
    isValidTld toCaseFolded tlds ((text ⟨middle, middle + stop⟩ source).mid (final.lastDotPos + 1).toNat)) = true
  parts : parsed = ⟨⟨link.start, middle⟩, ⟨middle, middle + stop⟩, ⟨middle + stop, bound⟩, ⟨link.start, bound⟩⟩
  extended : bound = link.stop ∨ text ⟨middle + stop, link.stop⟩ source ≠ [] ∧
    bound = max link.stop (scanParentheses (source.mid (middle + stop)) (middle + stop) 0 link.stop)

theorem parse_accepted {unicodeDigit : QChar → Bool} {source : QString} {parsed : Parsed}
    (found : parse unicodeDigit toCaseFolded tlds source = some parsed) :
    ∃ link middle stop bound final, Accepted unicodeDigit toCaseFolded tlds source parsed link middle stop bound final := by
  obtain ⟨ordered, inside⟩ := strip_inside source
  unfold parse at found
  simp only at found
  generalize stripped : strip source ⟨0, source.length⟩ = link at ordered inside found
  obtain ⟨middle, splits, -⟩ := splitProtocol_spec ordered inside
  rw [splits] at found
  simp only at found
  cases extraction : extractHost unicodeDigit (text ⟨middle, link.stop⟩ source) 0 {} with
  | none => simp [extraction] at found
  | some result =>
    obtain ⟨final, stop⟩ := result
    rw [extraction] at found
    simp only at found
    split at found
    · cases found
    · next dotted =>
      split at found
      · next ending =>
        split at found
        · next outside =>
          exact ⟨link, middle, stop, _, final, stripped.symm, splits, extraction, Bool.eq_false_iff.mpr dotted, ending,
            (Option.some.inj found).symm, Or.inr ⟨outside.2, rfl⟩⟩
        · exact ⟨link, middle, stop, _, final, stripped.symm, splits, extraction, Bool.eq_false_iff.mpr dotted, ending,
            (Option.some.inj found).symm, Or.inl rfl⟩
      · cases found

/-- The parser accepts well-formed links only. -/
theorem parse_wellFormed {unicodeDigit : QChar → Bool} {source : QString} {parsed : Parsed} (noEmpty : [] ∉ tlds)
    (folds : ∀ s, toCaseFolded s = [] ↔ s = []) (found : parse unicodeDigit toCaseFolded tlds source = some parsed) :
    WellFormed toCaseFolded tlds source parsed := by
  obtain ⟨link, middle, stop, bound, final, accepted⟩ := parse_accepted found
  obtain ⟨ordered, inside⟩ := strip_inside source
  rw [← accepted.stripped] at ordered inside
  obtain ⟨place, splits, first, second, protocol⟩ := splitProtocol_spec ordered inside
  have same : middle = place := congrArg (fun parts => parts.1.stop) (accepted.splits.symm.trans splits)
  subst same
  obtain ⟨host, extracted⟩ := extractHost_spec accepted.extraction
  have left := Bool.or_eq_false_iff.mp accepted.dotted
  -- a host without a dot leaves no TLD, which is refused
  have dotted : u '.' ∈ host := by
    by_contra free
    have place := extracted.free free
    rw [place] at left
    exact absurd left.2 (by decide)
  have ending := accepted.ending
  rw [extracted.hostText second inside, extracted.tld dotted, Bool.or_eq_true, isValidTld_iff, Bool.and_eq_true] at ending
  have ends : (∃ entry ∈ tlds, toCaseFolded entry = toCaseFolded (lastLabel host)) ∨ DottedAddress host :=
    ending.symm.imp_right fun address => isValidIpv4_spec address.2
  have last : lastLabel host ≠ [] := by
    rcases ends with ⟨entry, among, same⟩ | address
    · intro empty
      rw [empty, (folds []).mpr rfl, folds] at same
      exact noEmpty (same ▸ among)
    -- the last octet of an address has digits
    · have nonempty := split_ne_nil (u '.') host
      rw [lastLabel, List.getLast?_eq_getLast_of_ne_nil nonempty]
      exact (address.octets _ (List.getLast_mem nonempty)).nonempty
  rw [accepted.parts]
  rcases accepted.extended with rfl | ⟨nonempty, rfl⟩
  · exact assemble protocol extracted first second le_rfl inside rfl (Or.inl rfl) dotted last ends
  · have close : scanParentheses (source.mid (middle + stop)) (middle + stop) 0 link.stop ≤ source.length := by
      apply scanParentheses_le inside
      have fits := extracted.fits second inside
      rw [QString.mid, List.length_drop]
      omega
    exact assemble protocol extracted first second (Nat.le_max_left _ _) (Nat.max_le.mpr ⟨inside, close⟩) rfl
      (Or.inr nonempty) dotted last ends

theorem parse_wellFormed_com : WellFormed (fun s => s.map asciiLower) [qs "com"] (qs "(https://a.com/b)")
    ⟨⟨1, 9⟩, ⟨9, 14⟩, ⟨14, 16⟩, ⟨1, 16⟩⟩ :=
  @parse_wellFormed (fun s => s.map asciiLower) [qs "com"] isDigit _ _ (by decide) (fun _ => List.map_eq_nil_iff) (by decide)

end

end Forserino.Links
