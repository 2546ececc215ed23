import Forserino.Qt.PlaceMarkers

/-! Texts that are built for rich text: QString::toHtmlEscaped, and QString::arg with several
arguments, which replaces all markers in one pass.
-/

set_option autoImplicit false

namespace Forserino.Qt

def htmlEscaped (c : QChar) : QString :=
  if c = u '<' then qs "&lt;"
  else if c = u '>' then qs "&gt;"
  else if c = u '&' then qs "&amp;"
  else if c = u '"' then qs "&quot;"
  else [c]

def QString.toHtmlEscaped (s : QString) : QString := s.flatMap htmlEscaped

/-- The marker %n stands for the n-th argument; skip counts the units of a replaced marker that are
still to be dropped. -/
def replaceMarkers (args : List QString) : Nat → QString → QString
  | _, [] => []
  | skip + 1, _ :: rest => replaceMarkers args skip rest
  | 0, c :: rest =>
      match markerAt (c :: rest) with
      | some (n, length) =>
          match args[n - 1]? with
          | some arg => arg ++ replaceMarkers args (length - 1) rest
          | none => c :: replaceMarkers args 0 rest
      | none => c :: replaceMarkers args 0 rest

/-- QString::arg(a1, …, an), for a text whose markers are numbered from 1 to n. -/
def QString.args (s : QString) (args : List QString) : QString := replaceMarkers args 0 s

example : QString.args (qs "%1<br>%2 Emote") [qs "%2", QString.toHtmlEscaped (qs "a<b")] = qs "%2<br>a&lt;b Emote" := by
  decide

end Forserino.Qt
