import Calculator.Proofs.Grammar.Pairing
import Calculator.Proofs.Grammar.Parsing
import Calculator.Proofs.Token.Scan
/-!
# Layouts

A layout writes words down with blanks before, between and after them. Between
two words the blanks may be left out where one of the two is a symbol. The tokens
of such a text are the words, each where it was written (`Layout.tokenize_source`),
and the parser tells two layouts of the same words apart by the places of their
tokens only (`layout_undone_by_tokenize`).
-/

namespace Calculator

/-- **A word**, which is a lexeme as it may be written, and its kind. -/
structure Word where
  kind : Kind
  text : String
  isWord : Lexeme.IsWord kind text.toList

/-- The word is one character that goes on with nothing. -/
def Word.isSymbol (word : Word) : Bool := word.kind.symbol?.isSome

/-- A word and the blanks before it. -/
structure Piece where
  gap : List Char
  word : Word
  blank : ∀ c ∈ gap, Text.isBlank c

/-- **Neighbours are told apart**: by blanks, or because one of them is a symbol. -/
def Piece.Apart (piece next : Piece) : Prop :=
  next.gap ≠ [] ∨ piece.word.isSymbol ∨ next.word.isSymbol

/-- **Words with blanks** before, between and after them. -/
structure Layout where
  pieces : List Piece
  trailing : List Char
  apart : pieces.IsChain Piece.Apart
  blank : ∀ c ∈ trailing, Text.isBlank c

namespace Layout

/-- What is written, the blanks aside. -/
def words (layout : Layout) : List Word := layout.pieces.map Piece.word

/-- The pieces one after the other, and what follows the last. -/
def join (trailing : List Char) : List Piece → List Char
  | [] => trailing
  | piece :: rest => piece.gap ++ (piece.word.text.toList ++ join trailing rest)

/-- **The text of a layout.** -/
def source (layout : Layout) : String := .ofList (join layout.trailing layout.pieces)

/-- The words as tokens, where the first piece begins at this position. -/
def place (pos : Nat) : List Piece → List Token
  | [] => []
  | piece :: rest =>
    let start := pos + piece.gap.length
    ⟨piece.word.kind, start, piece.word.text⟩ :: place (start + piece.word.text.length) rest

/-- **The words as tokens, each where it is written**, and the end of the input. -/
def tokens (layout : Layout) : List Token :=
  place 0 layout.pieces ++ [⟨.endOfInput, layout.source.length, ""⟩]

/-! ## Its tokens -/

variable {pieces pieces' : List Piece} {trailing : List Char}

/-- Blanks bound what is before them. -/
theorem bounds_blanks {gap rest : List Char} (hgap : ∀ c ∈ gap, Text.isBlank c)
    (hrest : gap ≠ [] ∨ Lexeme.Bounds rest) : Lexeme.Bounds (gap ++ rest) := by
  cases gap with
  | nil => exact hrest.resolve_left (fun h => h rfl)
  | cons c gap => exact Lexeme.bounds_of_blank (hgap c List.mem_cons_self)

/-- **No word goes on with the next**, nor with what follows the last. -/
theorem not_gone_on {piece : Piece} (happart : (piece :: pieces).IsChain Piece.Apart)
    (htrailing : ∀ c ∈ trailing, Text.isBlank c) :
    piece.word.kind.symbol? ≠ none ∨ Lexeme.Bounds (join trailing pieces) := by
  cases pieces with
  | nil =>
    have hbounds := bounds_blanks htrailing (.inr Lexeme.bounds_nil)
    rw [List.append_nil] at hbounds
    exact .inr hbounds
  | cons next rest =>
    rcases (List.isChain_cons_cons.1 happart).1 with hgap | hsymbol | hsymbol
    · exact .inr (bounds_blanks next.blank (.inl hgap))
    · exact .inl (Option.isSome_iff_ne_none.1 hsymbol)
    · have hnext := Option.isSome_iff_ne_none.1 hsymbol
      exact .inr (bounds_blanks next.blank (.inr (next.word.isWord.bounds hnext)))

/-- Pieces scan as the tokens they are placed as. -/
theorem scans_join (happart : pieces.IsChain Piece.Apart)
    (htrailing : ∀ c ∈ trailing, Text.isBlank c) (pos : Nat) :
    Scans pos (join trailing pieces) (place pos pieces) := by
  -- Each word is read before whatever the other pieces are, so only its neighbour matters.
  induction pieces generalizing pos with
  | nil => exact .blanks htrailing
  | cons piece rest ih =>
    have hread := piece.word.isWord.read_append (not_gone_on happart htrailing)
    have hrest := ih happart.tail (pos + piece.gap.length + piece.word.text.length)
    rw [← String.length_toList] at hrest
    have htoken := Scans.token piece.blank hread piece.word.isWord.kind_ne hrest
    rw [String.ofList_toList, String.length_toList] at htoken
    exact htoken

/-- **Tokenizing undoes a layout.** -/
theorem tokenize_source (layout : Layout) : tokenize layout.source = .ok layout.tokens := by
  refine tokenize_eq_ok_iff.2 ⟨place 0 layout.pieces, ?_, rfl⟩
  rw [source, String.toList_ofList]
  exact scans_join layout.apart layout.blank 0

/-! ## Layouts of the same words -/

/-- Tokens of one kind and one text, wherever they stand. -/
def SameWord (token token' : Token) : Prop := token'.kind = token.kind ∧ token'.text = token.text

/-- Where the words are the same, so are the tokens but for their places. -/
theorem sameWord_place (hwords : pieces'.map Piece.word = pieces.map Piece.word) (pos pos' : Nat) :
    List.Forall₂ SameWord (place pos pieces) (place pos' pieces') := by
  induction pieces generalizing pieces' pos pos' with
  | nil =>
    obtain rfl : pieces' = [] := by simpa using hwords
    exact .nil
  | cons piece rest ih =>
    obtain ⟨piece', rest', rfl, hword, hrest⟩ := List.map_eq_cons_iff.1 hwords
    exact .cons ⟨congrArg Word.kind hword, congrArg Word.text hword⟩ (ih hrest _ _)

/-- With the end of the input. -/
theorem sameWord_tokens {layout other : Layout} (hwords : other.words = layout.words) :
    List.Forall₂ SameWord layout.tokens other.tokens :=
  List.rel_append (sameWord_place hwords 0 0) (.cons ⟨rfl, rfl⟩ .nil)

/-- **Tokens that correspond** are in the same place of their lists. -/
def Correspond (layout other : Layout) (token token' : Token) : Prop :=
  (token, token') ∈ layout.tokens.zip other.tokens

/-- A parser cannot tell them apart but by where they stand. -/
theorem pairing_correspond {layout other : Layout} (context : Context)
    (hwords : other.words = layout.words) :
    Pairing id context context (Correspond layout other) where
  kind_eq h := (List.forall₂_zip (sameWord_tokens hwords) h).1
  text_eq h := (List.forall₂_zip (sameWord_tokens hwords) h).2
  value_eq h _ := by rw [(List.forall₂_zip (sameWord_tokens hwords) h).2]
  lookup_eq h _ := by rw [(List.forall₂_zip (sameWord_tokens hwords) h).2]

end Layout

/-- **The same outcome for two layouts**: one tree, or one error, with its data, at
tokens that correspond. A wrong number of arguments is reported for the whole call, from
the name of its function to the parenthesis that closes it. -/
inductive SameOutcome (layout other : Layout) :
    Except (Located SyntaxError) Expr → Except (Located SyntaxError) Expr → Prop
  | tree {tree : Expr} : SameOutcome layout other (.ok tree) (.ok tree)
  | token {token token' : Token} {error : SyntaxError} : layout.Correspond other token token' →
      SameOutcome layout other (.error ⟨error, token.span⟩) (.error ⟨error, token'.span⟩)
  | call {name name' closing closing' : Token} {mismatch : ArityMismatch} :
      layout.Correspond other name name' → layout.Correspond other closing closing' →
      SameOutcome layout other (.error ⟨.arityMismatch mismatch, name.start, closing.stop⟩)
        (.error ⟨.arityMismatch mismatch, name'.start, closing'.stop⟩)

/-- Runs that keep together without a change of names have the same outcome. -/
theorem Outcome.Paired.sameOutcome {layout other : Layout}
    {outcome outcome' : Except (Located SyntaxError) Expr}
    (h : Outcome.Paired id (layout.Correspond other)
      (fun tree tree' : Expr => tree'.mapNames id = tree.mapNames id) outcome outcome') :
    SameOutcome layout other outcome outcome' := by
  cases h with
  | ok hgood =>
    rw [Expr.mapNames_id, Expr.mapNames_id] at hgood
    rw [hgood]
    exact .tree
  | error herror =>
    cases herror with
    | token hpair herror =>
      rw [SyntaxError.mapText_id, SyntaxError.mapText_id] at herror
      rw [herror]
      exact .token hpair
    | @call name name' closing closing' mismatch mismatch' hname hclosing hmismatch =>
      obtain rfl : mismatch' = mismatch := hmismatch
      exact .call hname hclosing

/-- **Tokenizing undoes writing words down.** The tokens of a layout are its words with
their kinds and texts in order, each where it was written, and the end of the input. So
every other layout of these words has the same outcome in every context. -/
theorem layout_undone_by_tokenize (layout : Layout) :
    tokenize layout.source = .ok layout.tokens ∧
      ∀ (context : Context) (other : Layout), other.words = layout.words →
        SameOutcome layout other (parse context layout.source) (parse context other.source) := by
  refine ⟨layout.tokenize_source, fun context other hwords => ?_⟩
  have hpairs : List.Forall₂ (layout.Correspond other) layout.tokens other.tokens :=
    List.forall₂_iff_zip.2 ⟨(Layout.sameWord_tokens hwords).length_eq, id⟩
  exact ((Layout.pairing_correspond context hwords).parse layout.tokenize_source
    other.tokenize_source hpairs).sameOutcome

/-- A call is too short however it is laid out, and the error follows it. -/
theorem layouts_of_empty_call : ∃ tight loose : Layout,
    tight.source = "f()" ∧ loose.source = " f ( ) " ∧ loose.words = tight.words ∧
      tokenize "f()" = .ok tight.tokens ∧
      parse (.sample 2.0) "f()" = .error ⟨.arityMismatch ⟨"f", 1, 0⟩, 0, 3⟩ ∧
      parse (.sample 2.0) " f ( ) " = .error ⟨.arityMismatch ⟨"f", 1, 0⟩, 1, 6⟩ ∧
      SameOutcome tight loose (parse (.sample 2.0) "f()") (parse (.sample 2.0) " f ( ) ") := by
  have hread : Lexeme.read ['f'] = .token .identifier "f".toList := by decide
  have hname : Lexeme.IsWord .identifier "f".toList := Lexeme.isWord_of_read hread (by decide)
  have hopening : Lexeme.IsWord .openParen "(".toList := .symbol rfl
  have hclosing : Lexeme.IsWord .closeParen ")".toList := .symbol rfl
  have hspace : ∀ c ∈ [' '], Text.isBlank c := List.forall_mem_singleton.2 (by decide)
  let tight : Layout := ⟨[⟨[], ⟨_, _, hname⟩, nofun⟩, ⟨[], ⟨_, _, hopening⟩, nofun⟩,
    ⟨[], ⟨_, _, hclosing⟩, nofun⟩], [],
    by simp [Piece.Apart, Word.isSymbol, Kind.symbol?], nofun⟩
  let loose : Layout := ⟨[⟨[' '], ⟨_, _, hname⟩, hspace⟩, ⟨[' '], ⟨_, _, hopening⟩, hspace⟩,
    ⟨[' '], ⟨_, _, hclosing⟩, hspace⟩], [' '],
    by simp [Piece.Apart, Word.isSymbol, Kind.symbol?], hspace⟩
  have htight : tight.source = "f()" := by cbv
  have hloose : loose.source = " f ( ) " := by cbv
  have hparse (value : Float) : parse (.sample value) "f()" =
      .error ⟨.arityMismatch ⟨"f", 1, 0⟩, 0, 3⟩ := by cbv
  have hparse' (value : Float) : parse (.sample value) " f ( ) " =
      .error ⟨.arityMismatch ⟨"f", 1, 0⟩, 1, 6⟩ := by cbv
  obtain ⟨htokens, hsame⟩ := layout_undone_by_tokenize tight
  have houtcome := hsame (.sample 2.0) loose rfl
  rw [htight] at htokens houtcome
  rw [hloose] at houtcome
  exact ⟨tight, loose, htight, hloose, rfl, htokens, hparse 2.0, hparse' 2.0, houtcome⟩

end Calculator
