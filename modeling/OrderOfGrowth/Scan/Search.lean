import OrderOfGrowth.Text.Pattern

/-!
The two search classifiers. Each is a conjunction of shapes that may stand anywhere in the source,
in any order. No shape reads past the closing parenthesis of the header it is in.
-/

set_option autoImplicit false

namespace OrderOfGrowth.Scan

def boundedWhile : Pattern :=
  .sequence [.text "while".toList, .white, .one '(', .except ')', .one '<', .optional (.one '='),
    .except ')', .one ')']

def midpoint : Pattern :=
  .sequence [.text "mid".toList, .white, .one '=', .white, .optional (.one '('), .except ')',
    .text "low".toList, .white, .one '+', .white, .text "high".toList, .except ')',
    .optional (.one ')')]

def equalityIf : Pattern :=
  .sequence [.text "if".toList, .white, .one '(', .except ')', .text "==".toList, .except ')',
    .one ')']

def elseIfLess : Pattern :=
  .sequence [.text "else".toList, .someRun Text.isWhiteSpace, .text "if".toList, .white, .one '(',
    .except ')', .one '<']

def indexBoundedFor : Pattern :=
  .sequence [.text "for".toList, .white, .one '(', .except ')', .one 'i', .except ')', .one '<',
    .except ')', .one 'n', .except ')', .one ')']

def isBinarySearch (source : Text) : Bool :=
  boundedWhile.occurs source && midpoint.occurs source && equalityIf.occurs source &&
    elseIfLess.occurs source

def isLinearSearch (source : Text) : Bool :=
  indexBoundedFor.occurs source && equalityIf.occurs source

end OrderOfGrowth.Scan
