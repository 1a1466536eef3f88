import OrderOfGrowth.Proofs.Markup.Highlight
import OrderOfGrowth.Proofs.Text.Simulation
import Mathlib.Data.List.TakeWhile

/-!
Comments in highlighted texts. Where the search for tokens comes to the start of a comment, the comment
is the next token (`comment_first`), and it comes to every place that is not inside a token. Besides
comments and literals only a run of operators can have such a place inside, so a comment outside of
those is shown as one (`comment_shown_iff`).
-/

set_option autoImplicit false

namespace OrderOfGrowth

namespace Pattern

theorem ways_text (word s : Text) : ways (text word) (word ++ s) = [s] := by
  induction word with
  | nil => rfl
  | cons c word ih =>
      have split : text (c :: word) = seq (one c) (text word) := rfl
      simp [split, ways, one, ih]

theorem ways_text_other (word s : Text) (other : ¬ word <+: s) : ways (text word) s = [] := by
  rw [ways_nil_iff]
  intro fits
  obtain ⟨w, rest, accepted, rfl⟩ := fits
  rw [(accepts_text word w).mp accepted] at other
  exact other (List.prefix_append word rest)

theorem run_ways_head (test : Char → Bool) (shorter : List Text) (s : Text) :
    (runWays test shorter s).head? = some (s.dropWhile test) := by
  induction s generalizing shorter with
  | nil => rfl
  | cons c s ih =>
      rw [runWays]
      by_cases passes : test c
      · rw [if_pos passes, ih, List.dropWhile_cons_of_pos passes]
      · rw [if_neg passes, List.dropWhile_cons_of_neg passes, List.head?_cons]

end Pattern

namespace Markup

open Text (Found LeavesSuffixes scanFrom)

def lineMark : Text :=
  "//".toList

def openMark : Text :=
  "/*".toList

def closeMark : Text :=
  "*/".toList

-- A comment starts here: one of a line, or a block that is closed somewhere behind.
def OpensComment (s : Text) : Prop :=
  lineMark <+: s ∨ ∃ behind, s = openMark ++ behind ∧ closeMark <:+: behind

-- A comment, and what is behind it: the rest of its line, or a block as far as its first closing mark.
inductive IsComment : Text → Text → Prop
  | line (body rest : Text) : '\n' ∉ body → (∀ c ∈ rest.head?, c = '\n') → IsComment (lineMark ++ body) rest
  | block (body rest : Text) : ¬ closeMark <:+: body ++ ['*'] →
      IsComment (openMark ++ (body ++ closeMark)) rest

-- A mark cannot be the end of a body and the start of the mark behind it.
theorem close_starts_iff (c : Char) (body rest : Text) :
    closeMark <+: c :: (body ++ (closeMark ++ rest)) ↔ closeMark <+: c :: (body ++ ['*']) := by
  cases body <;> simp [closeMark]

theorem first_close (s : Text) (closed : closeMark <:+: s) :
    ∃ body rest, s = body ++ (closeMark ++ rest) ∧ ¬ closeMark <:+: body ++ ['*'] := by
  induction s with
  | nil => exact absurd closed (by decide)
  | cons c s ih =>
      by_cases here : closeMark <+: c :: s
      · obtain ⟨rest, split⟩ := here
        exact ⟨[], rest, split.symm, by decide⟩
      · obtain ⟨body, rest, rfl, first⟩ := ih ((List.infix_cons_iff.mp closed).resolve_left here)
        refine ⟨c :: body, rest, rfl, fun inside => ?_⟩
        rcases List.infix_cons_iff.mp inside with starts | later
        · exact here ((close_starts_iff c body rest).mpr starts)
        · exact first later

theorem comment_opened (s : Text) (opens : OpensComment s) :
    ∃ comment rest, s = comment ++ rest ∧ IsComment comment rest := by
  rcases opens with ⟨behind, rfl⟩ | ⟨behind, rfl, closed⟩
  · refine ⟨lineMark ++ behind.takeWhile (· != '\n'), behind.dropWhile (· != '\n'), by simp, .line _ _ ?_ ?_⟩
    · intro member
      simpa using List.mem_takeWhile_imp member
    · intro c first
      have stops := List.head?_dropWhile_not (· != '\n') behind
      rw [Option.mem_def.mp first] at stops
      simpa using stops
  · obtain ⟨body, rest, rfl, first⟩ := first_close behind closed
    exact ⟨openMark ++ (body ++ closeMark), rest, by simp, .block body rest first⟩

theorem block_way (body rest : Text) (first : ¬ closeMark <:+: body ++ ['*']) :
    ((Pattern.shortRunWays (fun _ => true) (body ++ (closeMark ++ rest))).flatMap
      (Pattern.text closeMark).ways).head? = some rest := by
  induction body with
  | nil =>
      have shape : closeMark ++ rest = '*' :: '/' :: rest := rfl
      rw [List.nil_append, shape, Pattern.shortRunWays, List.flatMap_cons, ← shape, Pattern.ways_text]
      rfl
  | cons c body ih =>
      have other : ¬ closeMark <+: c :: (body ++ (closeMark ++ rest)) := fun starts =>
        first ((close_starts_iff c body rest).mp starts).isInfix
      have later : ¬ closeMark <:+: body ++ ['*'] := fun inside => first (List.infix_cons inside)
      rw [List.cons_append, Pattern.shortRunWays, List.flatMap_cons, Pattern.ways_text_other _ _ other,
        List.nil_append]
      exact ih later

theorem comment_rest (comment rest : Text) (isComment : IsComment comment rest) :
    Token.comment.rest? (comment ++ rest) = some rest := by
  cases isComment with
  | line body rest single ends =>
      have all := (Pattern.all_other_iff '\n' body).mpr single
      have stops : rest.dropWhile (· != '\n') = rest := by
        cases rest with
        | nil => rfl
        | cons c rest => exact List.dropWhile_cons_of_neg (by simp [ends c rfl])
      have taken := Pattern.run_ways_head (· != '\n') [] (body ++ rest)
      rw [List.dropWhile_append_of_pos all, stops] at taken
      rw [List.append_assoc, Token.comment, Pattern.rest?, Pattern.ways, List.head?_append]
      have line : ((Pattern.sequence [.text lineMark, .except '\n']).ways (lineMark ++ (body ++ rest))).head? =
          some rest := by
        simp [Pattern.sequence, Pattern.ways, Pattern.ways_text, Pattern.except, taken]
      exact congrArg (Option.or · _) line
  | block body rest first =>
      have noLine : ¬ lineMark <+: openMark ++ (body ++ (closeMark ++ rest)) := by
        simp [lineMark, openMark]
      have line : (Pattern.sequence [.text lineMark, .except '\n']).ways
          (openMark ++ (body ++ (closeMark ++ rest))) = [] := by
        simp [Pattern.sequence, Pattern.ways, Pattern.ways_text_other _ _ noLine]
      have block : ((Pattern.sequence [.text openMark, .shortRun fun _ => true, .text closeMark]).ways
          (openMark ++ (body ++ (closeMark ++ rest)))).head? = some rest := by
        simpa [Pattern.sequence, Pattern.ways, Pattern.ways_text] using block_way body rest first
      rw [List.append_assoc, List.append_assoc, Token.comment, Pattern.rest?, Pattern.ways]
      exact (congrArg List.head? ((congrArg (· ++ _) line).trans (List.nil_append _))).trans block

theorem comment_first (before : Option Char) (comment rest : Text) (isComment : IsComment comment rest) :
    Token.first? before (comment ++ rest) = some (.comment, rest) := by
  have found := comment_rest comment rest isComment
  rw [Pattern.rest?] at found
  simp [Token.first?, Token.kinds, Token.ways, Token.isBounded, Token.pattern, found]

theorem ways_accepted (kind : TokenKind) (before : Option Char) (s rest : Text)
    (way : rest ∈ Token.ways kind before s) : ∃ w, (Token.pattern kind).Accepts w ∧ s = w ++ rest := by
  apply (Pattern.mem_ways _ s rest).mp
  rw [Token.ways] at way
  split at way
  · split at way
    · exact (List.mem_filter.mp way).1
    · cases way
  · exact way

theorem first_way (before : Option Char) (s : Text) (kind : TokenKind) (rest : Text)
    (found : Token.first? before s = some (kind, rest)) : (Token.ways kind before s).head? = some rest := by
  obtain ⟨tried, -, here⟩ := List.exists_of_findSome?_eq_some found
  obtain ⟨left, first, same⟩ := Option.map_eq_some_iff.mp here
  obtain ⟨rfl, rfl⟩ := Prod.mk.inj same
  exact first

theorem first_accepted (before : Option Char) (s : Text) (kind : TokenKind) (rest : Text)
    (found : Token.first? before s = some (kind, rest)) :
    ∃ w, (Token.pattern kind).Accepts w ∧ s = w ++ rest :=
  ways_accepted kind before s rest (List.mem_of_head? (first_way before s kind rest found))

theorem token_leaves : LeavesSuffixes Token.first? := by
  intro before s kind rest found
  obtain ⟨w, -, rfl⟩ := first_accepted before s kind rest found
  exact List.suffix_append w rest

-- What stands in a text where a token is said to be.
theorem token_stands (s : Text) (token : Found TokenKind) (member : token ∈ Token.all s) :
    ∃ before w rest, s = before ++ (w ++ rest) ∧ w ≠ [] ∧ token.start = before.length ∧
      token.stop = before.length + w.length ∧ (Token.pattern token.kind).Accepts w ∧
      Token.first? before.getLast? (w ++ rest) = some (token.kind, rest) := by
  obtain ⟨before, w, rest, split, nonempty, starts, stops, found⟩ := Text.scan_sound token_leaves [] s token member
  obtain ⟨taken, accepted, same⟩ := first_accepted _ _ _ _ found
  obtain rfl := List.append_cancel_right same
  exact ⟨before, w, rest, split, nonempty, starts, by simpa using stops, accepted, found⟩

-- The pieces of a text are cut in front of each token and behind it.
theorem pieces_from_token (s : Text) (last : Nat) (front later : List (Found TokenKind))
    (token : Found TokenKind) (ordered : Text.InOrder s.length last (front ++ token :: later)) :
    ∃ ahead behind, piecesFrom s last (front ++ token :: later) =
        ahead ++ ⟨styleOf token.kind (s.drop token.stop), slice s token.start token.stop⟩ :: behind ∧
      ahead.flatMap Piece.text ++ s.drop token.start = s.drop last ∧
      behind.flatMap Piece.text = s.drop token.stop := by
  induction front generalizing last with
  | nil =>
      obtain ⟨ahead, -, -, rest⟩ := ordered
      refine ⟨[⟨none, slice s last token.start⟩], piecesFrom s token.stop later, rfl, ?_, ?_⟩
      · simpa using slice_append_drop s last token.start ahead
      · exact pieces_from_text s token.stop later rest
  | cons first front ih =>
      obtain ⟨gap, forward, -, rest⟩ := ordered
      obtain ⟨ahead, behind, read, text, left⟩ := ih first.stop rest
      refine ⟨⟨none, slice s last first.start⟩ ::
        ⟨styleOf first.kind (s.drop first.stop), slice s first.start first.stop⟩ :: ahead, behind, ?_, ?_, left⟩
      · rw [List.cons_append, piecesFrom, read]
        rfl
      · rw [List.flatMap_cons, List.flatMap_cons, List.append_assoc, List.append_assoc, text,
          slice_append_drop s _ _ (Nat.le_of_lt forward), slice_append_drop s _ _ gap]

theorem slice_between (before w rest : Text) :
    slice (before ++ (w ++ rest)) before.length (before.length + w.length) = w := by
  rw [slice, List.take_length_add_append, List.take_left, List.drop_left]

theorem token_is_piece (before w rest : Text) (kind : TokenKind)
    (member : ⟨kind, before.length, before.length + w.length⟩ ∈ Token.all (before ++ (w ++ rest))) :
    ∃ front back, pieces (before ++ (w ++ rest)) = front ++ ⟨styleOf kind rest, w⟩ :: back ∧
      front.flatMap Piece.text = before ∧ back.flatMap Piece.text = rest := by
  obtain ⟨front, later, tokens⟩ := List.append_of_mem member
  have ordered := Text.find_all_in_order Token.first? (before ++ (w ++ rest))
  change Text.InOrder _ 0 (Token.all _) at ordered
  rw [tokens] at ordered
  obtain ⟨ahead, behind, read, text, left⟩ := pieces_from_token _ 0 front later _ ordered
  have startsAt : (before ++ (w ++ rest)).drop before.length = w ++ rest := List.drop_left
  have stopsAt : (before ++ (w ++ rest)).drop (before.length + w.length) = rest := by
    rw [List.drop_length_add_append, List.drop_left]
  simp only [startsAt, stopsAt, slice_between, List.drop_zero] at read text left
  exact ⟨ahead, behind, by rw [pieces, tokens, read], List.append_cancel_right text, left⟩

theorem token_not_cut (s : Text) (token : Found TokenKind) (member : token ∈ Token.all s)
    (front back : List Piece) (cut : pieces s = front ++ back) :
    ¬ token.Crosses (front.flatMap Piece.text).length := by
  obtain ⟨before, w, rest, rfl, -, starts, stops, -, -⟩ := token_stands s token member
  obtain ⟨kind, start, stop⟩ := token
  obtain rfl : start = before.length := starts
  obtain rfl : stop = before.length + w.length := stops
  obtain ⟨ahead, behind, read, rfl, -⟩ := token_is_piece before w rest kind member
  intro crosses
  have after : (ahead.flatMap Piece.text).length < (front.flatMap Piece.text).length := crosses.1
  have inside : (front.flatMap Piece.text).length < (ahead.flatMap Piece.text).length + w.length := crosses.2
  rcases List.append_eq_append_iff.mp (cut.symm.trans read) with ⟨more, rfl, -⟩ | ⟨more, rfl, split⟩
  · rw [List.flatMap_append, List.length_append] at after
    omega
  · cases more with
    | nil => simp at after
    | cons piece more =>
        obtain ⟨rfl, -⟩ := List.cons.inj split
        simp only [List.flatMap_append, List.flatMap_cons, List.length_append] at inside
        omega

-- The kinds of tokens that can have a slash in them.
theorem slash_kinds (kind : TokenKind) (w : Text) (accepted : (Token.pattern kind).Accepts w)
    (member : '/' ∈ w) : kind = .comment ∨ kind = .string ∨ kind = .operator := by
  have avoids := fun each => Pattern.accepts_avoids (Token.pattern kind) w '/' each accepted
  cases kind with
  | comment => exact .inl rfl
  | string => exact .inr (.inl rfl)
  | operator => exact .inr (.inr rfl)
  | directive => exact absurd member (avoids (by decide))
  | keyword => exact absurd member (avoids (by decide))
  | number => exact absurd member (avoids (by decide))
  | identifier => exact absurd member (avoids (by decide))
  | punctuation => exact absurd member (avoids (by decide))

-- A token with a place inside has in it what stands next to the place on both sides.
theorem crossing_stands (before behind : Text) (token : Found TokenKind)
    (member : token ∈ Token.all (before ++ behind)) (crosses : token.Crosses before.length) :
    ∃ ahead front within rest, before = ahead ++ front ∧ behind = within ++ rest ∧ front ≠ [] ∧ within ≠ [] ∧
      token.start = ahead.length ∧ token.stop = before.length + within.length ∧
      (Token.pattern token.kind).Accepts (front ++ within) ∧
      Token.first? ahead.getLast? (front ++ (within ++ rest)) = some (token.kind, rest) := by
  obtain ⟨ahead, w, rest, split, -, starts, stops, accepted, found⟩ := token_stands _ token member
  obtain ⟨after, inside⟩ := crosses
  rw [starts] at after
  rw [stops] at inside
  rcases List.append_eq_append_iff.mp split with ⟨more, aheadEq, -⟩ | ⟨front, rfl, taken⟩
  · rw [aheadEq, List.length_append] at after
    omega
  · rw [List.length_append] at after inside
    rcases List.append_eq_append_iff.mp taken with ⟨short, rfl, -⟩ | ⟨within, rfl, rfl⟩
    · rw [List.length_append] at inside
      omega
    · rw [List.length_append] at inside stops
      refine ⟨ahead, front, within, rest, rfl, rfl, ?_, ?_, starts, ?_, accepted, ?_⟩
      · exact List.length_pos_iff.mp (by omega)
      · exact List.length_pos_iff.mp (by omega)
      · rw [stops, List.length_append, Nat.add_assoc]
      · rwa [List.append_assoc] at found

theorem crossing_token (before behind : Text) (token : Found TokenKind)
    (member : token ∈ Token.all (before ++ behind)) (crosses : token.Crosses before.length) :
    ∃ w, (Token.pattern token.kind).Accepts w ∧ (∃ c ∈ before.getLast?, c ∈ w) ∧ ∀ c ∈ behind.head?, c ∈ w := by
  obtain ⟨ahead, front, within, rest, rfl, rfl, some, more, -, -, accepted, -⟩ :=
    crossing_stands before behind token member crosses
  refine ⟨front ++ within, accepted, ⟨front.getLast some, ?_, List.mem_append_left _ (List.getLast_mem some)⟩, ?_⟩
  · rw [List.getLast?_append, List.getLast?_eq_some_getLast some]
    rfl
  · intro c first
    rw [List.head?_append_of_ne_nil _ more] at first
    exact List.mem_append_right _ (List.mem_of_head? first)

-- A stretch of a highlighted text is one piece of this style, in a span of its own.
def ShownAs (style : Style) (language before shown rest : Text) : Prop :=
  ∃ front back,
    Highlighter.tokens.piecesOf language (before ++ (shown ++ rest)) = front ++ ⟨some style, shown⟩ :: back ∧
      front.flatMap Piece.text = before ∧ back.flatMap Piece.text = rest ∧
      Highlighter.tokens.highlight language (before ++ (shown ++ rest)) =
        render front ++ (Piece.openTag style ++ escapeContent shown ++ Piece.closeTag ++ render back)

def Uncrossed (kind : TokenKind) (before behind : Text) : Prop :=
  ∀ token ∈ Token.all (before ++ behind), token.kind = kind → ¬ token.Crosses before.length

instance (kind : TokenKind) (before behind : Text) : Decidable (Uncrossed kind before behind) :=
  inferInstanceAs (Decidable (∀ token ∈ Token.all (before ++ behind), token.kind = kind →
    ¬ token.Crosses before.length))

theorem comment_starts_with_slash (s : Text) (opens : OpensComment s) : '/' ∈ s.head? := by
  rcases opens with ⟨_, rfl⟩ | ⟨_, rfl, -⟩ <;> rfl

theorem comment_nonempty (comment rest : Text) (isComment : IsComment comment rest) : comment ≠ [] := by
  cases isComment <;> exact List.append_ne_nil_of_left_ne_nil (by decide) _

-- Where no token goes on past a place, what is found there is a token.
theorem next_token (before w rest : Text) (kind : TokenKind) (nonempty : w ≠ [])
    (first : Token.first? before.getLast? (w ++ rest) = some (kind, rest))
    (uncrossed : ∀ token ∈ Token.all (before ++ (w ++ rest)), ¬ token.Crosses before.length) :
    ⟨kind, before.length, before.length + w.length⟩ ∈ Token.all (before ++ (w ++ rest)) := by
  rcases Text.scan_visits token_leaves [] before (w ++ rest) with ⟨token, member, crosses⟩ | ⟨front, read⟩
  · exact absurd crosses (uncrossed token member)
  · have next := Text.scan_found before w rest kind nonempty first
    have all : Token.all (before ++ (w ++ rest)) = front ++ Text.scanFrom Token.first? before (w ++ rest) :=
      read
    rw [all, next, List.length_append]
    exact List.mem_append_right _ List.mem_cons_self

theorem uncrossed_visited (before comment rest : Text) (isComment : IsComment comment rest)
    (opens : OpensComment (comment ++ rest)) (comments : Uncrossed .comment before (comment ++ rest))
    (literals : Uncrossed .string before (comment ++ rest))
    (operators : Uncrossed .operator before (comment ++ rest)) :
    ⟨.comment, before.length, before.length + comment.length⟩ ∈ Token.all (before ++ (comment ++ rest)) := by
  have first := comment_first before.getLast? comment rest isComment
  refine next_token before comment rest .comment (comment_nonempty comment rest isComment) first ?_
  intro token member crosses
  obtain ⟨w, accepted, -, holds⟩ := crossing_token before _ token member crosses
  rcases slash_kinds token.kind w accepted (holds '/' (comment_starts_with_slash _ opens)) with kind | kind | kind
  · exact comments token member kind crosses
  · exact literals token member kind crosses
  · exact operators token member kind crosses

theorem token_shown (style : Style) (kind : TokenKind) (language before w rest : Text)
    (known : Highlighter.knows language = true) (styled : styleOf kind rest = some style)
    (member : ⟨kind, before.length, before.length + w.length⟩ ∈ Token.all (before ++ (w ++ rest))) :
    ShownAs style language before w rest := by
  obtain ⟨front, back, read, text, left⟩ := token_is_piece before w rest kind member
  have cut : Highlighter.tokens.piecesOf language (before ++ (w ++ rest)) = front ++ ⟨some style, w⟩ :: back := by
    rw [Highlighter.piecesOf, if_pos known, read, styled]
  refine ⟨front, back, cut, text, left, ?_⟩
  rw [Highlighter.highlight, cut]
  simp [render, Piece.render]

/-- A comment that starts outside of comments and literals is shown as one comment, unless a run of
operators goes on into its mark; no such run does if there is no operator in front of it. -/
theorem comment_shown_iff (language before opened : Text) (known : Highlighter.knows language = true)
    (opens : OpensComment opened) (comments : Uncrossed .comment before opened)
    (literals : Uncrossed .string before opened) :
    ∃ comment rest, opened = comment ++ rest ∧ IsComment comment rest ∧
      (ShownAs .comment language before comment rest ↔ Uncrossed .operator before opened) ∧
      ((∀ c ∈ before.getLast?, Token.isOperatorChar c = false) → Uncrossed .operator before opened) := by
  obtain ⟨comment, rest, rfl, isComment⟩ := comment_opened opened opens
  refine ⟨comment, rest, rfl, isComment, ⟨?_, ?_⟩, ?_⟩
  · intro shown token member _
    obtain ⟨front, back, cut, rfl, -⟩ := shown
    rw [Highlighter.piecesOf, if_pos known] at cut
    exact token_not_cut _ token member front _ cut
  · intro operators
    exact token_shown .comment .comment language before comment rest known rfl
      (uncrossed_visited before comment rest isComment opens comments literals operators)
  · intro plain token member kind crosses
    obtain ⟨w, accepted, ⟨c, last, inside⟩, -⟩ := crossing_token before _ token member crosses
    rw [kind] at accepted
    have passes := ((Pattern.accepts_some_run _ w).mp accepted).2 c inside
    rw [plain c last] at passes
    cases passes

def calledLiteral : Text :=
  "f(\"//\")".toList

def blockBehind : Text :=
  "/* <c> // */ + 1".toList

theorem block_behind_call_shown :
    Highlighter.knows ['C'] = true ∧ OpensComment blockBehind ∧ Uncrossed .comment calledLiteral blockBehind ∧
      Uncrossed .string calledLiteral blockBehind ∧ ∃ comment rest, blockBehind = comment ++ rest ∧
        IsComment comment rest ∧ ShownAs .comment ['C'] calledLiteral comment rest := by
  have opens : OpensComment blockBehind := .inr ⟨" <c> // */ + 1".toList, by decide, by decide⟩
  have comments : Uncrossed .comment calledLiteral blockBehind := by decide +kernel
  have literals : Uncrossed .string calledLiteral blockBehind := by decide +kernel
  obtain ⟨comment, rest, split, isComment, shown, plain⟩ :=
    comment_shown_iff ['C'] calledLiteral blockBehind (by decide) opens comments literals
  refine ⟨by decide, opens, comments, literals, comment, rest, split, isComment, shown.mpr (plain ?_)⟩
  intro c last
  have same : ')' = c := Option.some.inj last
  rw [← same]
  decide

-- An assignment with a comment directly behind it: the operators go on into the mark.
theorem operator_hides_comment :
    OpensComment "// b".toList ∧ Uncrossed .comment ['='] "// b".toList ∧ Uncrossed .string ['='] "// b".toList ∧
      (∀ comment rest, "// b".toList = comment ++ rest → ¬ ShownAs .comment ['c'] ['='] comment rest) ∧
      Highlighter.tokens.highlight ['c'] "=// b".toList =
        "<span class=\"token operator\">=//</span> b".toList := by
  refine ⟨.inl ⟨" b".toList, by decide⟩, by decide +kernel, by decide +kernel, ?_, by decide +kernel⟩
  intro comment rest split shown
  obtain ⟨front, back, cut, text, -⟩ := shown
  have known : Highlighter.knows ['c'] = true := by decide
  have member : ⟨.operator, 0, 3⟩ ∈ Token.all (['='] ++ "// b".toList) := by decide +kernel
  rw [← split, Highlighter.piecesOf, if_pos known] at cut
  have uncrossed := token_not_cut _ _ member front _ cut
  rw [text] at uncrossed
  exact uncrossed (by decide)

end Markup

end OrderOfGrowth
