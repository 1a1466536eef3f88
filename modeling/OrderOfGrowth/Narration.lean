import OrderOfGrowth.Number.Logarithm
import OrderOfGrowth.Signals

/-!
The narration of a set of signals: a fixed derivation, line by line. A line that opens a section has
an empty line in front of it when the narration is written as text.
-/

set_option autoImplicit false

namespace OrderOfGrowth

structure Line where
  text : Text
  opensSection : Bool
  deriving DecidableEq, Repr

namespace Line

def plain (text : Text) : Line :=
  ⟨text, false⟩

def opening (text : Text) : Line :=
  ⟨text, true⟩

def shown (line : Line) : Text :=
  if line.opensSection then '\n' :: line.text else line.text

end Line

namespace Narration

open Text (decimal)

def nestingVerdict (depth : Nat) : List Line :=
  if depth = 1 then
    [.plain "➡️ Time Complexity: O(n)".toList, .opening "T(n) = C1 + C2·n".toList]
  else if depth = 2 then
    [.plain "➡️ Time Complexity: O(n²)".toList, .opening "T(n) = C1 + C2·n + C3·n²".toList]
  else
    [.plain ("➡️ Time Complexity: O(n^".toList ++ decimal depth ++ ")".toList),
      .opening ("T(n) = C1 + C2·n + ... + C".toList ++ decimal (depth + 1) ++ "·n^".toList ++
        decimal depth)]

-- The verdict on the loops: a binary search first, then a linear one, then the nesting.
def loopVerdict (signals : Signals) : List Line :=
  if signals.isBinarySearch then
    [.opening "🔎 Detected pattern of Binary Search".toList,
      .plain "➡️ Time Complexity: O(log n)".toList,
      .opening "T(n) = C1 + C2·log₂(n)".toList]
  else if signals.isLinearSearch then
    [.opening "🔎 Detected pattern of Linear Search".toList,
      .plain "➡️ Time Complexity: O(n)".toList,
      .opening "T(n) = C1 + C2·n".toList]
  else nestingVerdict signals.loopDepth

def loopLines (signals : Signals) : List Line :=
  if signals.loopCount = 0 then [.opening "❌ No loops detected".toList]
  else
    [.opening ("➡️ Detected ".toList ++ decimal signals.loopCount ++ " loop(s)".toList),
      .plain ("➡️ Loop nesting level: ".toList ++ decimal signals.loopDepth)] ++
      loopVerdict signals

def exponentText (calls : Nat) : Text :=
  Number.logText 2 calls

def isBalanced (calls : Nat) : Bool :=
  Nat.pow 2 99 < Nat.pow calls 100 && Nat.pow calls 100 < Nat.pow 2 101

-- The case of the master theorem for a linear rest: the exponent is one, above one or below.
def masterCase (calls : Nat) : List Line :=
  if isBalanced calls then
    [.plain "→ Case 2: f(n) = Θ(n^log_b(a)) ⇒ T(n) = Θ(n log n)".toList,
      .opening "🟢 Final Time Complexity: O(n log n)".toList]
  else if 2 < calls then
    [.plain ("→ Case 1: T(n) = Θ(n^".toList ++ exponentText calls ++ ")".toList)]
  else [.plain "→ Case 3: T(n) = Θ(n)".toList]

-- The derivation for a recursive function: each call halves the problem and the rest is linear.
def recursionLines (recursion : Scan.Recursion) : List Line :=
  let calls := decimal recursion.callCount
  let exponent := exponentText recursion.callCount
  [.opening ("🔁 Recursive function detected: ".toList ++ recursion.functionName),
    .plain ("➡️ Recursive calls: ".toList ++ calls),
    .plain "➡️ Assuming divide-and-conquer form: T(n) = a·T(n/b) + f(n)".toList,
    .opening ("Step 1: T(n) = ".toList ++ calls ++ "·T(n/2) + C·n".toList),
    .plain ("Step 2: log_b(a) = log_2(".toList ++ calls ++ ") = ".toList ++ exponent),
    .plain ("Step 3: Compare f(n) = Θ(n) to n^log_b(a) = Θ(n^".toList ++ exponent ++
      ")".toList)] ++
    masterCase recursion.callCount

def constantLines : List Line :=
  [.opening "📦 No loops or recursion detected → O(1)".toList, .plain "T(n) = C1".toList]

def ofSignals (signals : Signals) : List Line :=
  [.plain "🔍 Code Analysis Started".toList] ++ loopLines signals ++
    match signals.recursion with
    | some recursion => recursionLines recursion
    | none => if signals.loopCount = 0 then constantLines else []

def toText (lines : List Line) : Text :=
  Text.joinWith ['\n'] (lines.map Line.shown)

end Narration

end OrderOfGrowth
