import OrderOfGrowth.Proofs.Markup.Highlight

/-!
Texts with holes, read as markup. Whatever fills the holes, the tags are those of the text around them
and each hole stays in the content or the quoted value it stands in (`read_filled`), provided that no
filling has the one character that would end its stretch. A filling between spans does not disturb the
removal of their tags, either (`drop_tags_filled`).
-/

set_option autoImplicit false

namespace OrderOfGrowth.Report

-- A tag without its angles and without what its quotes hold, or the content between two tags.
inductive Token (σ : Type) where
  | tag (name : Text)
  | content (read : List σ)

-- Where a reader of markup stands, and what it has read of the token it is in.
inductive Place (σ : Type) where
  | content (read : List σ)
  | tag (name : Text)
  | value (name : Text)

def Place.step {σ : Type} (char? : σ → Option Char) : Place σ → σ → List (Token σ) × Place σ
  | .content read, x =>
    if char? x = some '<' then ([.content read], .tag []) else ([], .content (read ++ [x]))
  | .tag name, x =>
    match char? x with
    | none => ([], .tag name)
    | some c =>
      if c = '>' then ([.tag name], .content [])
      else if c = '"' then ([], .value (name ++ ['"']))
      else ([], .tag (name ++ [c]))
  | .value name, x =>
    if char? x = some '"' then ([], .tag (name ++ ['"'])) else ([], .value name)

def read {σ : Type} (char? : σ → Option Char) : Place σ → List σ → List (Token σ) × Place σ
  | place, [] => ([], place)
  | place, x :: s =>
    let found := place.step char? x
    let later := read char? found.2 s
    (found.1 ++ later.1, later.2)

def tags {σ : Type} (tokens : List (Token σ)) : List Text :=
  tokens.filterMap fun token => match token with
    | .tag name => some name
    | .content _ => none

-- The contents of table cells: what stands right behind an opening tag of one.
def cells {σ : Type} : Bool → List (Token σ) → List (List σ)
  | _, [] => []
  | _, .tag name :: tokens => cells (name == "td".toList) tokens
  | inCell, .content read :: tokens =>
    if inCell then read :: cells false tokens else cells false tokens

-- A character, or a hole that some text will fill.
abbrev Symbol (α : Type) := Char ⊕ α

def Symbol.char? {α : Type} : Symbol α → Option Char
  | .inl c => some c
  | .inr _ => none

inductive Context where
  | content
  | tag
  | value
  deriving DecidableEq

-- A filling must not end the stretch it is put into. Nothing may be put between the angles of a tag.
def Context.Admits : Context → Text → Prop
  | content, s => '<' ∉ s
  | tag, _ => False
  | value, s => '"' ∉ s

def Place.context {σ : Type} : Place σ → Context
  | .content _ => .content
  | .tag _ => .tag
  | .value _ => .value

-- The holes of a text, each with the stretch it stands in.
def holes {α : Type} : Place (Symbol α) → List (Symbol α) → List (Context × α)
  | _, [] => []
  | place, .inl c :: symbols => holes (place.step Symbol.char? (.inl c)).2 symbols
  | place, .inr hole :: symbols =>
    (place.context, hole) :: holes (place.step Symbol.char? (.inr hole)).2 symbols

section Filling

variable {α : Type} (fill : α → Text)

def Symbol.filled : Symbol α → Text
  | .inl c => [c]
  | .inr hole => fill hole

def filled (symbols : List (Symbol α)) : Text :=
  symbols.flatMap (Symbol.filled fill)

theorem filled_append (front back : List (Symbol α)) :
    filled fill (front ++ back) = filled fill front ++ filled fill back :=
  List.flatMap_append

def Token.filled : Token (Symbol α) → Token Char
  | .tag name => .tag name
  | .content read => .content (Report.filled fill read)

def Place.filled : Place (Symbol α) → Place Char
  | .content read => .content (Report.filled fill read)
  | .tag name => .tag name
  | .value name => .value name

theorem read_append {σ : Type} (char? : σ → Option Char) (place : Place σ) (s t : List σ) :
    read char? place (s ++ t) =
      ((read char? place s).1 ++ (read char? (read char? place s).2 t).1,
        (read char? (read char? place s).2 t).2) := by
  induction s generalizing place with
  | nil => rfl
  | cons x s ih =>
      rw [List.cons_append, read, ih, read]
      simp only [List.append_assoc]

theorem read_content (before s : Text) (stays : '<' ∉ s) :
    read some (.content before) s = ([], .content (before ++ s)) := by
  induction s generalizing before with
  | nil => rw [read, List.append_nil]
  | cons c s ih =>
      have other : c ≠ '<' := fun same => stays (same ▸ List.mem_cons_self)
      have later := ih (before ++ [c]) fun member => stays (List.mem_cons_of_mem c member)
      simp [read, Place.step, other, later]

theorem read_value (name s : Text) (stays : '"' ∉ s) : read some (.value name) s = ([], .value name) := by
  induction s with
  | nil => rfl
  | cons c s ih =>
      have other : c ≠ '"' := fun same => stays (same ▸ List.mem_cons_self)
      have later := ih fun member => stays (List.mem_cons_of_mem c member)
      simp [read, Place.step, other, later]

theorem read_symbol_char (place : Place (Symbol α)) (c : Char) :
    read some (place.filled fill) [c] =
      ((place.step Symbol.char? (.inl c)).1.map (Token.filled fill),
        (place.step Symbol.char? (.inl c)).2.filled fill) := by
  cases place with
  | content read =>
      by_cases opens : c = '<' <;>
        simp [Report.read, Place.step, Place.filled, Token.filled, filled, Symbol.filled, Symbol.char?, opens]
  | tag name =>
      by_cases closes : c = '>'
      · simp [read, Place.step, Place.filled, Token.filled, filled, Symbol.char?, closes]
      · by_cases quotes : c = '"' <;>
          simp [read, Place.step, Place.filled, Symbol.char?, closes, quotes]
  | value name =>
      by_cases quotes : c = '"' <;> simp [read, Place.step, Place.filled, Symbol.char?, quotes]

theorem read_symbol_hole (place : Place (Symbol α)) (hole : α)
    (admitted : place.context.Admits (fill hole)) :
    read some (place.filled fill) (fill hole) =
      ((place.step Symbol.char? (.inr hole)).1.map (Token.filled fill),
        (place.step Symbol.char? (.inr hole)).2.filled fill) := by
  cases place with
  | content read =>
      have kept := read_content (filled fill read) (fill hole) admitted
      simpa [Place.step, Place.filled, filled, Symbol.filled, Symbol.char?] using kept
  | tag name => exact absurd admitted id
  | value name => simpa [Place.step, Place.filled, Symbol.char?] using read_value name (fill hole) admitted

theorem read_filled (place : Place (Symbol α)) (symbols : List (Symbol α))
    (admitted : ∀ hole ∈ holes place symbols, hole.1.Admits (fill hole.2)) :
    read some (place.filled fill) (filled fill symbols) =
      ((read Symbol.char? place symbols).1.map (Token.filled fill),
        (read Symbol.char? place symbols).2.filled fill) := by
  induction symbols generalizing place with
  | nil => rfl
  | cons x symbols ih =>
      have split : filled fill (x :: symbols) = Symbol.filled fill x ++ filled fill symbols := rfl
      have first : read some (place.filled fill) (Symbol.filled fill x) =
          ((place.step Symbol.char? x).1.map (Token.filled fill),
            (place.step Symbol.char? x).2.filled fill) := by
        cases x with
        | inl c => exact read_symbol_char fill place c
        | inr hole => exact read_symbol_hole fill place hole (admitted _ List.mem_cons_self)
      have later := ih (place.step Symbol.char? x).2 (by
        cases x with
        | inl c => exact admitted
        | inr hole => exact fun other member => admitted other (List.mem_cons_of_mem _ member))
      rw [split, read_append, first, later, read]
      simp

theorem tags_filled (tokens : List (Token (Symbol α))) :
    tags (tokens.map (Token.filled fill)) = tags tokens := by
  rw [tags, tags, List.filterMap_map]
  congr 1
  funext token
  cases token <;> rfl

theorem cells_filled (inCell : Bool) (tokens : List (Token (Symbol α))) :
    cells inCell (tokens.map (Token.filled fill)) = (cells inCell tokens).map (filled fill) := by
  induction tokens generalizing inCell with
  | nil => rfl
  | cons token tokens ih =>
      cases token with
      | tag name => exact ih (name == "td".toList)
      | content read => cases inCell <;> simp [cells, Token.filled, ih]

-- A tag that begins a text of symbols would have to differ from it in a character.
def differs : Text → List (Symbol α) → Bool
  | c :: tag, .inl d :: symbols => c != d || differs tag symbols
  | _, _ => false

theorem differs_not_prefix (tag : Text) (symbols : List (Symbol α)) (differ : differs tag symbols = true) :
    ¬ tag <+: filled fill symbols := by
  induction tag generalizing symbols with
  | nil => simp [differs] at differ
  | cons c tag ih =>
      cases symbols with
      | nil => simp [differs] at differ
      | cons x symbols =>
          cases x with
          | inr hole => simp [differs] at differ
          | inl d =>
              intro starts
              obtain ⟨rfl, later⟩ := List.cons_prefix_cons.mp starts
              exact ih symbols (by simpa [differs] using differ) later

-- No tag of a span begins at any character of the text around the holes.
def withoutSpans : List (Symbol α) → Bool
  | [] => true
  | .inl c :: symbols =>
    (c != '<' || Markup.tags.all fun tag => differs tag (.inl c :: symbols)) && withoutSpans symbols
  | .inr _ :: symbols => withoutSpans symbols

def Separate (s : Text) : Prop :=
  ∀ rest, Markup.dropTags (s ++ rest) = Markup.dropTags s ++ Markup.dropTags rest

theorem separate_plain (s : Text) (plain : '<' ∉ s) : Markup.dropTags s = s ∧ Separate s := by
  have kept : Markup.dropTags s = s := by
    have whole := Markup.drop_tags_content s [] plain
    simpa [Markup.dropTags] using whole
  refine ⟨kept, ?_⟩
  intro rest
  rw [Markup.drop_tags_content s rest plain, kept]

theorem separate_append (s t : Text) (front : Separate s) (back : Separate t) : Separate (s ++ t) := by
  intro rest
  rw [List.append_assoc, front, back, front, List.append_assoc]

theorem separate_tag (tag : Text) (member : tag ∈ Markup.tags) : Separate tag := by
  have alone : Markup.dropTags tag = [] := by
    have whole := Markup.drop_tags_tag tag [] member
    simpa [Markup.dropTags] using whole
  intro rest
  rw [Markup.drop_tags_tag tag rest member, alone, List.nil_append]

theorem is_markup_separate (s : Text) (markup : Markup.IsMarkup s) : Separate s := by
  induction markup with
  | nil => exact (separate_plain [] List.not_mem_nil).2
  | content s rest escaped _ ih =>
      exact separate_append s rest (separate_plain s escaped.noOpening).2 ih
  | span name s rest known escaped _ ih =>
      have opened : Separate (Markup.spanTag name) :=
        separate_tag _ (List.mem_cons_of_mem _ (List.mem_map_of_mem known))
      have closed : Separate Markup.endTag := separate_tag _ List.mem_cons_self
      have inside := separate_append _ _ opened (separate_plain s escaped.noOpening).2
      exact separate_append _ _ (separate_append _ _ inside closed) ih

theorem drop_tags_other (c : Char) (s : Text) (none : ∀ tag ∈ Markup.tags, ¬ tag <+: c :: s) :
    Markup.dropTags (c :: s) = c :: Markup.dropTags s := by
  have absent : Markup.tags.find? (fun tag => tag.isPrefixOf (c :: s)) = .none := by
    rw [List.find?_eq_none]
    intro tag member starts
    exact none tag member (List.isPrefixOf_iff_prefix.mp starts)
  rw [Markup.dropTags, absent]

theorem drop_tags_filled (symbols : List (Symbol α)) (spanless : withoutSpans symbols = true)
    (separate : ∀ hole, Separate (fill hole)) :
    Markup.dropTags (filled fill symbols) = filled (Markup.dropTags ∘ fill) symbols := by
  induction symbols with
  | nil => rw [filled, filled, List.flatMap_nil, List.flatMap_nil, Markup.dropTags]
  | cons x symbols ih =>
      cases x with
      | inr hole =>
          have later := separate hole (filled fill symbols)
          rw [ih spanless] at later
          exact later
      | inl c =>
          obtain ⟨here, behind⟩ := Bool.and_eq_true_iff.mp spanless
          have kept : Markup.dropTags (c :: filled fill symbols) =
              c :: Markup.dropTags (filled fill symbols) := by
            by_cases opens : c = '<'
            · apply drop_tags_other
              intro tag member
              have differ : Markup.tags.all (fun tag => differs tag (.inl c :: symbols)) = true := by
                simpa [opens] using here
              exact differs_not_prefix fill tag _ (List.all_eq_true.mp differ tag member)
            · exact Markup.drop_tags_plain c _ opens
          rw [ih behind] at kept
          exact kept

end Filling

end OrderOfGrowth.Report
