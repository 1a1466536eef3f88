import OrderOfGrowth.Text.WhiteSpace

/-!
The loop scan. A line opens a loop if its trimmed text starts with `for` or `while`, and closes one
if its trimmed text is a closing brace; no other brace is seen.
-/

set_option autoImplicit false

namespace OrderOfGrowth.Scan

def opensLoop (line : Text) : Bool :=
  "for".toList.isPrefixOf line || "while".toList.isPrefixOf line

def closesLoop (line : Text) : Bool :=
  line == ['}']

-- The state of the scan: loops seen, loops open now, and the most that were ever open.
structure LoopScan where
  count : Nat := 0
  depth : Nat := 0
  maxDepth : Nat := 0
  deriving DecidableEq, Repr

namespace LoopScan

def openLevel (scan : LoopScan) : LoopScan :=
  ⟨scan.count + 1, scan.depth + 1, max scan.maxDepth (scan.depth + 1)⟩

-- Closes a level; the number of open loops never falls below zero.
def closeLevel (scan : LoopScan) : LoopScan :=
  { scan with depth := scan.depth - 1 }

def step (scan : LoopScan) (line : Text) : LoopScan :=
  let trimmed := Text.trimMargin line
  let scan := if opensLoop trimmed then scan.openLevel else scan
  if closesLoop trimmed then scan.closeLevel else scan

def ofSource (source : Text) : LoopScan :=
  (Text.lines source).foldl step {}

end LoopScan

end OrderOfGrowth.Scan
