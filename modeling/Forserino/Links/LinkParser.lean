import Forserino.Qt.Text

/-! Recognizing a link in a word. All parts of the result are views over the word: two
positions in it, as the source has two pointers into it.
-/

set_option autoImplicit false

namespace Forserino.Links

open Forserino.Qt

structure QStringView where
  start : Nat
  stop : Nat
  deriving DecidableEq, Repr

namespace QStringView

def text (view : QStringView) (source : QString) : QString := source.midN view.start (view.stop - view.start)

end QStringView

structure Parsed where
  protocol : QStringView
  host : QStringView
  rest : QStringView
  link : QStringView
  deriving DecidableEq, Repr

/-! ## Addresses and ports -/

/-- The loop of isValidIpv4; a section of four digits or of a value from 256 on ends it. -/
def ipv4Loop : QString → Nat → Nat → Nat → Bool → Bool
  | [], _, octetNumber, _, lastWasDot => octetNumber == 3 && !lastWasDot
  | current :: more, sectionValue, octetNumber, sectionDigits, lastWasDot =>
      if current = u '.' then
        if lastWasDot || octetNumber == 3 then false else ipv4Loop more 0 (octetNumber + 1) 0 true
      else if !isDigit current then false
      else
        let sectionValue := sectionValue * 10 + digitValue current
        let sectionDigits := sectionDigits + 1
        if sectionValue ≥ 256 || sectionDigits > 3 then false
        else ipv4Loop more sectionValue octetNumber sectionDigits false

def isValidIpv4 (host : QString) : Bool := ipv4Loop host 0 0 0 true

def endsHost (c : QChar) : Bool := c = u '/' || c = u '?' || c = u '#'

/-- At most five units are looked at. unicodeDigit is QChar::isDigit. -/
def portLoop (unicodeDigit : QChar → Bool) : Nat → QString → Bool
  | _, [] => true
  | i, c :: more =>
      if i = 5 then true
      else if i ≥ 1 && endsHost c then true
      else if !unicodeDigit c then false
      else portLoop unicodeDigit (i + 1) more

def startsWithPort (unicodeDigit : QChar → Bool) (string : QString) : Bool := portLoop unicodeDigit 0 string

/-! ## The ends of the link -/

def ignoredAtStart (c : QChar) : Bool := c ∈ qs "<*_~("

def ignoredAtEnd (c : QChar) : Bool := c ∈ qs ">?!.,:*~)"

def strip (source : QString) (view : QStringView) : QStringView :=
  let start := view.start + ((view.text source).takeWhile ignoredAtStart).length
  let view : QStringView := ⟨start, view.stop⟩
  ⟨start, view.stop - ((view.text source).reverse.takeWhile ignoredAtEnd).length⟩

/-- The lower case of an ASCII letter. No other unit is a letter of http when case is ignored. -/
def asciiLower (c : QChar) : QChar := if u 'A' ≤ c ∧ c ≤ u 'Z' then c + 32 else c

/-- The protocol and what comes behind it. -/
def splitProtocol (source : QString) (link : QStringView) : QStringView × QStringView :=
  let remaining := link.text source
  if (remaining.take 4).map asciiLower = qs "http" ∧ 8 ≤ remaining.length then
    let withProto := remaining.mid 4
    let consumed := if withProto.head? = some (u 's') ∨ withProto.head? = some (u 'S') then 5 else 4
    if QString.startsWith (remaining.mid consumed) (qs "://") then
      (⟨link.start, link.start + consumed + 3⟩, ⟨link.start + consumed + 3, link.stop⟩)
    else (⟨link.start, link.start⟩, link)
  else (⟨link.start, link.start⟩, link)

/-! ## The host -/

def isValidDomainChar (c : QChar) : Bool :=
  0x80 ≤ c || (u '0' ≤ c && c ≤ u '9') || (u 'A' ≤ c && c ≤ u 'Z') || (u 'a' ≤ c && c ≤ u 'z') ||
    c = u '_' || c = u '-' || c = u '.'

structure HostState where
  lastWasDot : Bool := true
  lastDotPos : Int := -1
  nDots : Nat := 0
  deriving DecidableEq, Repr

/-- The loop over the remaining text: the state behind it and the position where the host ends. -/
def extractHost (unicodeDigit : QChar → Bool) : QString → Nat → HostState → Option (HostState × Nat)
  | [], i, state => some (state, i)
  | currentChar :: more, i, state =>
      if currentChar = u '.' then
        if state.lastWasDot then none
        else extractHost unicodeDigit more (i + 1) ⟨true, i, state.nDots + 1⟩
      else
        -- the unit that ends the host counts as no dot, too
        let state := { state with lastWasDot := false }
        if currentChar = u ':' then
          if startsWithPort unicodeDigit more then some (state, i) else none
        else if endsHost currentChar then some (state, i)
        else if isValidDomainChar currentChar then extractHost unicodeDigit more (i + 1) state
        else none

/-- The position behind the last parenthesis that closes an outermost one. -/
def scanParentheses : QString → Nat → Nat → Nat → Nat
  | [], _, _, lastClose => lastClose
  | c :: more, it, nestingLevel, lastClose =>
      if c = u '(' then scanParentheses more (it + 1) (nestingLevel + 1) lastClose
      else if nestingLevel ≠ 0 ∧ c = u ')' then
        scanParentheses more (it + 1) (nestingLevel - 1) (if nestingLevel - 1 = 0 then it + 1 else lastClose)
      else scanParentheses more (it + 1) nestingLevel lastClose

section
variable (unicodeDigit : QChar → Bool) (toCaseFolded : QString → QString) (tlds : List QString)

def isValidTld (tld : QString) : Bool := tlds.any fun entry => toCaseFolded entry = toCaseFolded tld

def parse (source : QString) : Option Parsed :=
  let link := strip source ⟨0, source.length⟩
  let (protocol, remaining) := splitProtocol source link
  match extractHost unicodeDigit (remaining.text source) 0 {} with
  | none => none
  | some (state, i) =>
      let host : QStringView := ⟨remaining.start, remaining.start + i⟩
      let rest : QStringView := ⟨remaining.start + i, remaining.stop⟩
      if state.lastWasDot || state.lastDotPos ≤ 0 then none
      else if (state.nDots == 3 && isValidIpv4 (host.text source)) ||
          isValidTld toCaseFolded tlds ((host.text source).mid (state.lastDotPos + 1).toNat) then
        if link.stop ≠ source.length ∧ rest.text source ≠ [] then
          let lastClose := scanParentheses (source.mid rest.start) rest.start 0 link.stop
          some ⟨protocol, host, ⟨rest.start, max rest.stop lastClose⟩, ⟨link.start, max link.stop lastClose⟩⟩
        else some ⟨protocol, host, rest, link⟩
      else none

end

end Forserino.Links
