/-!
Stretches of source text. Bytes count from zero, lines and columns from one, and a column counts
the bytes since the last line break.
-/

namespace Antipattern

structure Span where
  startByte : Nat := 0
  endByte : Nat := 0
  startLine : Nat := 0
  startColumn : Nat := 0
  endLine : Nat := 0
  endColumn : Nat := 0
deriving DecidableEq, Inhabited

namespace Span

/-- A stretch that stays on the line it starts on. -/
def onLine (startByte endByte line column : Nat) : Span where
  startByte := startByte
  endByte := endByte
  startLine := line
  startColumn := column
  endLine := line
  endColumn := column + (endByte - startByte)

/-- From the start of the first stretch to the end of the last. -/
def through (first last : Span) : Span where
  startByte := first.startByte
  endByte := last.endByte
  startLine := first.startLine
  startColumn := first.startColumn
  endLine := last.endLine
  endColumn := last.endColumn

/-- The start position as messages show it. -/
def text (s : Span) : String :=
  toString s.startLine ++ ":" ++ toString s.startColumn

end Span
end Antipattern
