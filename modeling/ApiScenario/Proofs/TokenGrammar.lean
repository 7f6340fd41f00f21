import ApiScenario.Proofs.TokenStream

/-!
# The grammar of tokens

Tokens as a grammar of ordered choices: an alternative counts only where all before it fail, and a
repetition goes on for as long as it can. Gaps are skipped before every token and before the end.

```text
tokens              := token* END
token               := string | unterminatedString | unterminatedComment
                     | integer | word | punct | unknown
string              := '"' stringChar* '"'
unterminatedString  := '"' stringChar*
stringChar          := '\' ANY | !('"' | '\' | LF | CR) ANY
unterminatedComment := "/*" ANY*
integer             := '-'? DIGIT+
word                := (LETTER | '_') (LETTER | DIGIT | '_')*
punct               := '{' | '}' | '(' | ')' | ';' | ',' | '='
unknown             := ANY
blank               := ' ' | TAB | CR | LF
comment             := "//" (!(LF | CR LF | CR) ANY)* | "/*" (!"*/" ANY)* "*/"
```

Its last alternative is any character, so the grammar takes every text. Whether a piece is a token is
decided afterwards, piece by piece, and the first that is none ends the list. The lexer lists the
same (`tokens_eq_some`).
-/

namespace ApiScenario.TokenGrammar

open Lexer

/-! ## Expressions -/

/-- An expression: the front of a text that it matches and what follows, or nothing if it fails. -/
def Expr : Type := List Char → Option (List Char × List Char)

/-- One character of a class. -/
def one (p : Char → Bool) : Expr
  | [] => none
  | c :: cs => if p c then some ([c], cs) else none

/-- Any character. -/
def any : Expr := one fun _ => true

/-- A given character. -/
def chr (c : Char) : Expr := one (· == c)

/-- One expression after the other. -/
def seq (a b : Expr) : Expr := fun cs =>
  match a cs with
  | none => none
  | some (front, rest) => (b rest).map fun (more, rest') => (front ++ more, rest')

/-- The first expression or, where it fails, the second. -/
def alt (a b : Expr) : Expr := fun cs => (a cs).or (b cs)

/-- Nothing, where an expression fails. -/
def neg (a : Expr) : Expr := fun cs =>
  match a cs with
  | none => some ([], cs)
  | some _ => none

/-- An expression as often as it matches, each time going forward. -/
def repeated (a : Expr) (cs : List Char) : List Char × List Char :=
  match a cs with
  | none => ([], cs)
  | some (front, rest) =>
    if rest.length < cs.length then
      let more := repeated a rest
      (front ++ more.1, more.2)
    else ([], cs)
termination_by cs.length

/-- An expression any number of times. -/
def many (a : Expr) : Expr := fun cs => some (repeated a cs)

/-- An expression or nothing. -/
def optional (a : Expr) : Expr := fun cs => some ((a cs).getD ([], cs))

/-! ## Rules -/

def blank : Expr := alt (chr ' ') (alt (chr '\t') (alt (chr '\r') (chr '\n')))

def newline : Expr := alt (chr '\n') (alt (seq (chr '\r') (chr '\n')) (chr '\r'))

def lineComment : Expr := seq (seq (chr '/') (chr '/')) (many (seq (neg newline) any))

def closing : Expr := seq (chr '*') (chr '/')

def blockComment : Expr :=
  seq (seq (chr '/') (chr '*')) (seq (many (seq (neg closing) any)) closing)

def comment : Expr := alt lineComment blockComment

/-- What is skipped before each token and before the end: blanks, and comments with blanks. -/
def gap : Expr := seq (many blank) (many (seq comment (many blank)))

def stringChar : Expr :=
  alt (seq (chr '\\') any)
    (seq (neg (alt (chr '"') (alt (chr '\\') (alt (chr '\n') (chr '\r'))))) any)

def string : Expr := seq (chr '"') (seq (many stringChar) (chr '"'))

def unterminatedString : Expr := seq (chr '"') (many stringChar)

def unterminatedComment : Expr := seq (seq (chr '/') (chr '*')) (many any)

def integer : Expr := seq (optional (chr '-')) (seq (one Char.isDigit) (many (one Char.isDigit)))

def word : Expr :=
  seq (alt (one Char.isAlpha) (chr '_')) (many (alt (one Char.isAlphanum) (chr '_')))

def punct : Expr :=
  alt (chr '\x7b') (alt (chr '\x7d') (alt (chr '(') (alt (chr ')') (alt (chr ';') (alt (chr ',')
    (chr '='))))))

/-- The alternatives for a token. -/
inductive Rule where
  | string
  | unterminatedString
  | unterminatedComment
  | integer
  | word
  | punct
  | unknown

/-- The alternatives for a token, in the order in which they are tried. -/
def alternatives : List (Rule × Expr) :=
  [(.string, string), (.unterminatedString, unterminatedString),
    (.unterminatedComment, unterminatedComment), (.integer, integer), (.word, word),
    (.punct, punct), (.unknown, any)]

/-- The first alternative that matches, what it matches and what follows. -/
def token (cs : List Char) : Option (Rule × List Char × List Char) :=
  alternatives.findSome? fun (rule, e) => (e cs).map fun (text, rest) => (rule, text, rest)

/-- A piece of a text: what is skipped before it, the alternative that it matches and its text. -/
structure Lump where
  gap : List Char
  rule : Rule
  text : List Char

/-- The pieces of a text and what follows them. -/
def lumps (cs : List Char) : List Lump × List Char :=
  match gap cs with
  | none => ([], cs)
  | some (skipped, rest) =>
    match token rest with
    | none => ([], cs)
    | some (rule, text, rest') =>
      if rest'.length < cs.length then
        let more := lumps rest'
        (⟨skipped, rule, text⟩ :: more.1, more.2)
      else ([], cs)
termination_by cs.length

/-- The pieces of a whole text and what is skipped before its end, unless the grammar fails. -/
def tokens (cs : List Char) : Option (List Lump × List Char) :=
  match gap (lumps cs).2 with
  | some (skipped, []) => some ((lumps cs).1, skipped)
  | _ => none

/-! ## Reading pieces -/

/-- What a piece of text is that begins at `place`. -/
def Rule.read (place : Position) (text : List Char) : Rule → Lexed
  | .string =>
    match Literal.unescape (text.drop 1).dropLast with
    | .ok value => .ok ⟨.str (String.ofList value), place⟩
    | .error e => .error ⟨place.moveRight (e.offset + 1), e.found, Fault.unknownEscape.reason⟩
  | .unterminatedString => .error ⟨place, '"', Fault.unterminatedString.reason⟩
  | .unterminatedComment => .error ⟨place, '/', Fault.unterminatedComment.reason⟩
  | .integer =>
    match Decimal.read? text with
    | some n => .ok ⟨.int n, place⟩
    | none => .error ⟨place, text.headD '0', Fault.integerOutOfRange.reason⟩
  | .word => .ok ⟨wordKind (String.ofList text), place⟩
  | .punct =>
    match Punct.ofChar? (text.headD '\x00') with
    | some p => .ok ⟨.punct p, place⟩
    | none => .error ⟨place, text.headD '\x00', Fault.unrecognized.reason⟩
  | .unknown => .error ⟨place, text.headD '\x00', Fault.unrecognized.reason⟩

/-- The tokens of the pieces of a text that begins at `p`, up to the first piece that is none or to
the end of the text, before which `last` is skipped. -/
def items (p : Position) (last : List Char) : List Lump → List Lexed
  | [] => [.ok ⟨.eof, p.after last⟩]
  | lump :: rest =>
    let place := p.after lump.gap
    match lump.rule.read place lump.text with
    | .ok t => .ok t :: items (place.after lump.text) last rest
    | .error e => [.error e]

/-! ## What the expressions match -/

theorem alt_one (p q : Char → Bool) : alt (one p) (one q) = one fun c => p c || q c := by
  funext cs
  cases cs with
  | nil => rfl
  | cons c cs => cases hp : p c <;> simp [alt, one, hp]

/-- A character that is not in a class. -/
theorem seq_neg_one (p : Char → Bool) : seq (neg (one p)) any = one fun c => !p c := by
  funext cs
  cases cs with
  | nil => rfl
  | cons c cs => cases hp : p c <;> simp [seq, neg, any, one, hp]

/-- Characters of a class are taken for as long as there are any. -/
theorem repeated_one (p : Char → Bool) (cs : List Char) :
    repeated (one p) cs = (cs.takeWhile p, cs.dropWhile p) := by
  induction cs with
  | nil => rw [repeated]; rfl
  | cons c cs ih =>
    rw [repeated]
    cases hp : p c <;> simp [one, hp, ih]

/-- A repetition goes on where its expression matches. -/
theorem repeated_more {a : Expr} {cs front rest : List Char} (h : a cs = some (front, rest))
    (hlt : rest.length < cs.length) :
    repeated a cs = (front ++ (repeated a rest).1, (repeated a rest).2) := by
  rw [repeated, h]
  simp only [hlt, if_true]

/-- A repetition ends where its expression fails. -/
theorem repeated_end {a : Expr} {cs : List Char} (h : a cs = none) :
    repeated a cs = ([], cs) := by
  rw [repeated, h]

theorem repeated_length (a : Expr) (cs : List Char) : (repeated a cs).2.length ≤ cs.length := by
  fun_induction repeated a cs with
  | case1 => exact Nat.le_refl _
  | case2 cs front rest _ hlt more ih => exact Nat.le_trans ih (Nat.le_of_lt hlt)
  | case3 => exact Nat.le_refl _

theorem many_seq_more {a b : Expr} {cs front rest : List Char} (h : a cs = some (front, rest))
    (hlt : rest.length < cs.length) :
    seq (many a) b cs = (seq (many a) b rest).map fun (more, rest') => (front ++ more, rest') := by
  simp only [seq, many, repeated_more h hlt, Option.map_map]
  congr 1
  funext ⟨more, rest'⟩
  simp

theorem many_seq_end {a b : Expr} {cs : List Char} (h : a cs = none) :
    seq (many a) b cs = b cs := by
  simp [seq, many, repeated_end h]

theorem blank_eq : blank = one isBlank := by
  simp only [blank, chr, alt_one]
  congr 1
  funext c
  simp [isBlank, Bool.or_assoc]

/-- Before a line break there is none, whichever of the three forms it has. -/
theorem inLine_eq : seq (neg newline) any = one isInLine := by
  funext cs
  cases cs with
  | nil => rfl
  | cons c cs =>
    by_cases hn : c = '\n'
    · subst hn
      rfl
    · by_cases hr : c = '\r'
      · subst hr
        cases cs with
        | nil => rfl
        | cons d cs => by_cases hd : d = '\n' <;> simp [seq, neg, newline, alt, chr, one, isInLine, hd]
      · simp [seq, neg, newline, alt, chr, one, any, isInLine, hn, hr]

theorem lineComment_cons (rest : List Char) :
    lineComment ('/' :: '/' :: rest)
      = some ('/' :: '/' :: rest.takeWhile isInLine, rest.dropWhile isInLine) := by
  rw [lineComment, inLine_eq]
  simp [seq, many, chr, one, repeated_one]

/-- The body of a block comment ends where it is closed first. -/
theorem body_eq (cs : List Char) :
    seq (many (seq (neg closing) any)) closing cs = closeComment? cs := by
  fun_induction closeComment? cs with
  | case1 => rw [many_seq_end rfl]; rfl
  | case2 rest =>
    rw [many_seq_end (by simp [seq, neg, closing, chr, one])]
    simp [seq, closing, chr, one]
  | case3 c rest hopen ih =>
    -- The two marks are tried together: a star alone does not close the comment.
    have hfail : closing (c :: rest) = none := by
      by_cases hc : c = '*'
      · subst hc
        cases rest with
        | nil => rfl
        | cons d rest =>
          have hd : d ≠ '/' := fun hd => hopen rest rfl (by rw [hd])
          simp [seq, closing, chr, one, hd]
      · simp [seq, closing, chr, one, hc]
    have hstep : seq (neg closing) any (c :: rest) = some ([c], rest) := by
      simp [seq, neg, hfail, any, one]
    rw [many_seq_more hstep (by simp), ih]
    rfl

theorem blockComment_cons (rest : List Char) :
    blockComment ('/' :: '*' :: rest)
      = (closeComment? rest).map fun (body, rest') => ('/' :: '*' :: body, rest') := by
  rw [← body_eq]
  simp [blockComment, seq, chr, one]

theorem comment_line (rest : List Char) :
    comment ('/' :: '/' :: rest)
      = some ('/' :: '/' :: rest.takeWhile isInLine, rest.dropWhile isInLine) := by
  rw [comment, alt, lineComment_cons]
  rfl

theorem comment_block (rest : List Char) :
    comment ('/' :: '*' :: rest)
      = (closeComment? rest).map fun (body, rest') => ('/' :: '*' :: body, rest') := by
  rw [comment, alt, blockComment_cons]
  rfl

/-- A comment begins with a slash and then a slash or a star. -/
theorem comment_eq_none {c : Char} {rest : List Char}
    (hline : ∀ tail, c = '/' → rest = '/' :: tail → False)
    (hblock : ∀ tail, c = '/' → rest = '*' :: tail → False) : comment (c :: rest) = none := by
  by_cases hc : c = '/'
  · subst hc
    cases rest with
    | nil => rfl
    | cons d rest =>
      have hslash : d ≠ '/' := fun hd => hline rest rfl (by rw [hd])
      have hstar : d ≠ '*' := fun hd => hblock rest rfl (by rw [hd])
      simp [comment, alt, lineComment, blockComment, seq, chr, one, hslash, hstar]
  · simp [comment, alt, lineComment, blockComment, seq, chr, one, hc]

/-! ## Gaps -/

theorem gap_blank {c : Char} (h : isBlank c = true) (rest : List Char) :
    gap (c :: rest) = (gap rest).map fun (more, rest') => (c :: more, rest') := by
  have hblank : blank (c :: rest) = some ([c], rest) := by simp [blank_eq, one, h]
  exact many_seq_more hblank (by simp)

/-- Behind a comment a gap goes on as it begins. -/
theorem gap_comment {cs front rest : List Char} (hblank : blank cs = none)
    (hcomment : comment cs = some (front, rest)) (hlt : rest.length < cs.length) :
    gap cs = (gap rest).map fun (more, rest') => (front ++ more, rest') := by
  have hunit : seq comment (many blank) cs
      = some (front ++ (repeated blank rest).1, (repeated blank rest).2) := by
    simp [seq, hcomment, many]
  have hle := repeated_length blank rest
  -- The blanks behind the comment are taken by its round of the repetition in `gap cs`, and by the
  -- first repetition in `gap rest`.
  rw [gap, many_seq_end hblank, many, repeated_more hunit (by omega)]
  simp [seq, many]

theorem gap_end {cs : List Char} (hblank : blank cs = none) (hcomment : comment cs = none) :
    gap cs = some ([], cs) := by
  have hunit : seq comment (many blank) cs = none := by simp [seq, hcomment]
  rw [gap, many_seq_end hblank, many, repeated_end hunit]

/-- **The grammar skips what the lexer skips.** -/
theorem gap_eq (cs : List Char) : gap cs = some (trivia cs) := by
  fun_induction trivia cs with
  | case1 => exact gap_end rfl rfl
  | case2 rest more ih =>
    have hle := (List.dropWhile_sublist (l := rest) isInLine).length_le
    have hlt : (rest.dropWhile isInLine).length < ('/' :: '/' :: rest).length := by
      simp only [List.length_cons]
      omega
    rw [gap_comment (by rfl) (comment_line rest) hlt, ih]
    rfl
  | case3 rest body rest' hclosed more ih =>
    have hle := closeComment?_length hclosed
    have hcomment : comment ('/' :: '*' :: rest) = some ('/' :: '*' :: body, rest') := by
      rw [comment_block, hclosed]
      rfl
    have hlt : rest'.length < ('/' :: '*' :: rest).length := by
      simp only [List.length_cons]
      omega
    rw [gap_comment (by rfl) hcomment hlt, ih]
    rfl
  | case4 rest hopen =>
    refine gap_end rfl ?_
    rw [comment_block, hopen]
    rfl
  | case5 c rest _ _ hblank more ih =>
    rw [gap_blank hblank, ih]
    rfl
  | case6 c rest hline hblock hblank =>
    exact gap_end (by simp [blank_eq, one, hblank]) (comment_eq_none hline hblock)

/-! ## Alternatives -/

/-- A character that stands for itself in a literal. -/
def isPlain (c : Char) : Bool := !(c == '"' || (c == '\\' || (c == '\n' || c == '\r')))

theorem stringChar_eq : stringChar = alt (seq (chr '\\') any) (one isPlain) := by
  simp only [stringChar, chr, alt_one, seq_neg_one]
  rfl

theorem stringChar_escape (c : Char) (rest : List Char) :
    stringChar ('\\' :: c :: rest) = some (['\\', c], rest) := by
  simp [stringChar_eq, alt, seq, chr, one, any]

theorem stringChar_cons {c : Char} (h : c ≠ '\\') (rest : List Char) :
    stringChar (c :: rest) = one isPlain (c :: rest) := by
  simp [stringChar_eq, alt, seq, chr, one, h]

/-- The body of a literal ends where the lexer closes it. -/
theorem literal_eq (cs : List Char) :
    seq (many stringChar) (chr '"') cs
      = (Literal.close? cs).map fun (body, rest) => (body ++ ['"'], rest) := by
  fun_induction Literal.close? cs with
  | case1 => rw [many_seq_end rfl]; rfl
  | case2 rest => rw [many_seq_end (stringChar_cons (by decide) rest)]; rfl
  | case3 c rest ih =>
    rw [many_seq_more (stringChar_escape c rest) (by simp only [List.length_cons]; omega), ih]
    simp [Function.comp_def]
  | case4 => rw [many_seq_end (by rfl)]; rfl
  | case5 rest => rw [many_seq_end (stringChar_cons (by decide) rest)]; rfl
  | case6 rest => rw [many_seq_end (stringChar_cons (by decide) rest)]; rfl
  | case7 c rest hquote hmore hend hn hr ih =>
    have hslash := ne_backslash hmore hend
    have hplain : isPlain c = true := by
      simp only [isPlain, Bool.not_eq_true', Bool.or_eq_false_iff, beq_eq_false_iff_ne]
      exact ⟨hquote, hslash, hn, hr⟩
    have hstep : stringChar (c :: rest) = some ([c], rest) := by
      rw [stringChar_cons hslash, one, if_pos hplain]
    rw [many_seq_more hstep (by simp), ih]
    simp [Function.comp_def]

theorem string_cons (cs : List Char) :
    string ('"' :: cs)
      = (Literal.close? cs).map fun (body, rest) => ('"' :: (body ++ ['"']), rest) := by
  have hcons : string ('"' :: cs)
      = (seq (many stringChar) (chr '"') cs).map fun (more, rest) => ('"' :: more, rest) := by
    rw [string, seq]
    rfl
  rw [hcons, literal_eq, Option.map_map]
  rfl

/-- Digits, at least one. -/
theorem digits_cons (c : Char) (cs : List Char) :
    seq (one Char.isDigit) (many (one Char.isDigit)) (c :: cs) = if c.isDigit then
      some (c :: cs.takeWhile Char.isDigit, cs.dropWhile Char.isDigit) else none := by
  cases h : c.isDigit <;> simp [seq, one, h, many, repeated_one]

theorem integer_cons (c : Char) (cs : List Char) :
    integer (c :: cs) = if beginsInteger c cs then
      some (c :: cs.takeWhile Char.isDigit, cs.dropWhile Char.isDigit) else none := by
  by_cases hminus : c = '-'
  · subst hminus
    have hrest : integer ('-' :: cs) = (seq (one Char.isDigit) (many (one Char.isDigit)) cs).map
        fun (more, rest) => ('-' :: more, rest) := by
      rw [integer, seq]
      rfl
    cases cs with
    | nil => rw [hrest]; rfl
    | cons d ds =>
      rw [hrest, digits_cons]
      cases hd : d.isDigit <;> simp [beginsInteger, hd]
  · have hrest : integer (c :: cs) = seq (one Char.isDigit) (many (one Char.isDigit)) (c :: cs) := by
      rw [integer, seq]
      simp [optional, chr, one, hminus]
    rw [hrest, digits_cons]
    simp [beginsInteger, hminus]

theorem word_cons (c : Char) (cs : List Char) :
    word (c :: cs) = if Identifier.isFirst c then
      some (c :: cs.takeWhile Identifier.isNext, cs.dropWhile Identifier.isNext) else none := by
  have hfirst : alt (one Char.isAlpha) (chr '_') = one Identifier.isFirst := alt_one _ _
  have hnext : alt (one Char.isAlphanum) (chr '_') = one Identifier.isNext := alt_one _ _
  rw [word, hfirst, hnext]
  cases h : Identifier.isFirst c <;> simp [seq, one, h, many, repeated_one]

theorem punct_cons (c : Char) (cs : List Char) :
    punct (c :: cs) = if (Punct.ofChar? c).isSome then some ([c], cs) else none := by
  have hclass : punct = one fun c => (Punct.ofChar? c).isSome := by
    simp only [punct, chr, alt_one]
    congr 1
    funext d
    rw [Bool.eq_iff_iff, Punct.ofChar?, List.find?_isSome]
    simp [Punct.all, Punct.char, @eq_comm _ d]
  rw [hclass, one]

/-- Only a quote begins a literal, closed or not. -/
theorem opened_eq_none {c : Char} (h : c ≠ '"') (cs : List Char) :
    string (c :: cs) = none ∧ unterminatedString (c :: cs) = none := by
  simp [string, unterminatedString, seq, chr, one, h]

theorem unterminatedComment_cons (c : Char) (cs : List Char) :
    unterminatedComment (c :: cs)
      = if c = '/' ∧ cs.head? = some '*' then some (c :: cs, []) else none := by
  by_cases hslash : c = '/'
  · subst hslash
    cases cs with
    | nil => rfl
    | cons d cs =>
      by_cases hstar : d = '*'
      · subst hstar
        have hall : cs.takeWhile (fun _ => true) = cs ∧ cs.dropWhile (fun _ => true) = [] := by
          induction cs with
          | nil => exact ⟨rfl, rfl⟩
          | cons e cs ih => simp [ih]
        simp [unterminatedComment, seq, chr, one, many, any, repeated_one, hall]
      · simp [unterminatedComment, seq, chr, one, hstar]
  · simp [unterminatedComment, seq, chr, one, hslash]

/-! ## Pieces -/

/-- A piece that the grammar finds is what the lexer cuts off, and is read as the lexer reads it. -/
def Agrees (rule : Rule) (text rest : List Char) : Cut → Prop
  | .token kind lexeme rest' =>
    lexeme = text ∧ rest' = rest ∧ ∀ place, rule.read place text = .ok ⟨kind, place⟩
  | .fault offset found fault =>
    ∀ place, rule.read place text = .error ⟨place.moveRight offset, found, fault.reason⟩

theorem agrees_literal {cs body rest : List Char} (h : Literal.close? cs = some (body, rest)) :
    Agrees .string ('"' :: (body ++ ['"'])) rest (cutLiteral cs) := by
  have hinner : (('"' :: (body ++ ['"'])).drop 1).dropLast = body := by simp
  simp only [cutLiteral, h]
  cases hread : Literal.unescape body with
  | ok value =>
    refine ⟨rfl, rfl, ?_⟩
    intro place
    simp only [Rule.read, hinner, hread]
  | error e =>
    intro place
    simp only [Rule.read, hinner, hread]

theorem agrees_integer (c : Char) (cs : List Char) :
    Agrees .integer (c :: cs.takeWhile Char.isDigit) (cs.dropWhile Char.isDigit)
      (cutInteger c cs) := by
  simp only [cutInteger]
  cases hread : Decimal.read? (c :: cs.takeWhile Char.isDigit) with
  | some n =>
    refine ⟨rfl, rfl, ?_⟩
    intro place
    simp only [Rule.read, hread]
  | none =>
    intro place
    rw [place.moveRight_zero]
    simp only [Rule.read, hread]
    rfl

theorem agrees_mark (c : Char) (cs : List Char) :
    Agrees (if (Punct.ofChar? c).isSome then .punct else .unknown) [c] cs (cutMark c cs) := by
  simp only [cutMark]
  cases hmark : Punct.ofChar? c with
  | some p =>
    refine ⟨rfl, rfl, ?_⟩
    intro place
    simp [Rule.read, hmark]
  | none =>
    intro place
    rw [place.moveRight_zero]
    rfl

/-- The grammar finds a piece at the front of `c :: cs`, and it is what the lexer finds there. -/
def Finds (c : Char) (cs : List Char) : Prop :=
  ∃ rule text rest, token (c :: cs) = some (rule, text, rest) ∧ rest.length ≤ cs.length ∧
    Agrees rule text rest (cut c cs)

theorem finds_literal (cs : List Char) : Finds '"' cs := by
  unfold Finds
  rw [show cut '"' cs = cutLiteral cs from if_pos rfl]
  cases hclose : Literal.close? cs with
  | some closed =>
    obtain ⟨body, rest⟩ := closed
    have hlength := Literal.close?_length hclose
    refine ⟨.string, _, rest, ?_, by omega, agrees_literal hclose⟩
    simp [token, alternatives, string_cons, hclose]
  | none =>
    refine ⟨.unterminatedString, '"' :: (repeated stringChar cs).1, (repeated stringChar cs).2,
      ?_, repeated_length _ _, ?_⟩
    · simp [token, alternatives, string_cons, hclose, unterminatedString, seq, chr, one, many]
    · simp only [cutLiteral, hclose]
      intro place
      rw [place.moveRight_zero]
      rfl

/-- Where neither a literal nor a comment begins, the last four alternatives are tried. -/
theorem finds_other {c : Char} {cs : List Char} (hquote : c ≠ '"')
    (hcomment : ¬ (c = '/' ∧ cs.head? = some '*')) : Finds c cs := by
  have hdigits := (List.dropWhile_sublist (l := cs) Char.isDigit).length_le
  have hword := (List.dropWhile_sublist (l := cs) Identifier.isNext).length_le
  obtain ⟨hstring, hopen⟩ := opened_eq_none hquote cs
  have hnone : unterminatedComment (c :: cs) = none := by
    rw [unterminatedComment_cons, if_neg hcomment]
  unfold Finds
  rw [cut, if_neg hquote, if_neg hcomment]
  by_cases hint : beginsInteger c cs = true
  · refine ⟨.integer, c :: cs.takeWhile Char.isDigit, cs.dropWhile Char.isDigit, ?_, hdigits, ?_⟩
    · simp [token, alternatives, hstring, hopen, hnone, integer_cons, hint]
    · rw [if_pos hint]
      exact agrees_integer c cs
  · rw [if_neg hint]
    by_cases hfirst : Identifier.isFirst c = true
    · refine ⟨.word, c :: cs.takeWhile Identifier.isNext, cs.dropWhile Identifier.isNext, ?_, hword,
        ?_⟩
      · simp [token, alternatives, hstring, hopen, hnone, integer_cons, hint, word_cons, hfirst]
      · rw [if_pos hfirst]
        exact ⟨rfl, rfl, fun place => rfl⟩
    · rw [if_neg hfirst]
      refine ⟨_, [c], cs, ?_, Nat.le_refl _, agrees_mark c cs⟩
      cases hmark : (Punct.ofChar? c).isSome <;>
        simp [token, alternatives, hstring, hopen, hnone, integer_cons, hint, word_cons, hfirst,
          punct_cons, hmark, any, one]

/-- **Where something stands, an alternative matches it, and it is what the lexer finds.** -/
theorem finds_all (c : Char) (cs : List Char) : Finds c cs := by
  by_cases hquote : c = '"'
  · subst hquote
    exact finds_literal cs
  · by_cases hcomment : c = '/' ∧ cs.head? = some '*'
    · obtain ⟨hstring, hopen⟩ := opened_eq_none hquote cs
      have hmatch : unterminatedComment (c :: cs) = some (c :: cs, []) := by
        rw [unterminatedComment_cons, if_pos hcomment]
      refine ⟨.unterminatedComment, c :: cs, [], ?_, by simp, ?_⟩
      · simp [token, alternatives, hstring, hopen, hmatch]
      · rw [cut, if_neg hquote, if_pos hcomment, hcomment.1]
        intro place
        rw [place.moveRight_zero]
        rfl
    · exact finds_other hquote hcomment

/-! ## Whole texts -/

/-- Nothing is found in a gap at the end of a text. -/
theorem tokens_of_trivia_nil {cs : List Char} (h : (trivia cs).2 = []) :
    tokens cs = some ([], (trivia cs).1) := by
  have hskip : trivia cs = ((trivia cs).1, []) := Prod.ext rfl h
  have hlumps : lumps cs = ([], cs) := by
    rw [lumps, gap_eq, hskip]
    rfl
  rw [tokens, hlumps]
  simp only [gap_eq]
  rw [hskip]

/-- A piece comes before the pieces of the text behind it. -/
theorem tokens_of_trivia_cons {cs rest text rest' : List Char} {rule : Rule} {c : Char}
    (h : (trivia cs).2 = c :: rest) (htoken : token (c :: rest) = some (rule, text, rest'))
    (hlt : rest'.length < cs.length) :
    tokens cs = (tokens rest').map fun (ls, last) => (⟨(trivia cs).1, rule, text⟩ :: ls, last) := by
  have hlumps : lumps cs = (⟨(trivia cs).1, rule, text⟩ :: (lumps rest').1, (lumps rest').2) := by
    rw [lumps, gap_eq]
    simp only [h, htoken, hlt, if_true]
  rw [tokens, tokens, hlumps]
  simp only [gap_eq]
  split <;> rfl

/-- **The grammar takes every text, and the lexer lists the pieces that it finds.** -/
theorem tokens_eq_some (cs : List Char) :
    ∃ ls last, tokens cs = some (ls, last) ∧ ∀ p, scan p cs = items p last ls := by
  cases h : (trivia cs).2 with
  | nil =>
    refine ⟨[], (trivia cs).1, tokens_of_trivia_nil h, ?_⟩
    exact fun p => scan_end h
  | cons c rest =>
    obtain ⟨rule, text, rest', htoken, hle, hagrees⟩ := finds_all c rest
    have hlt : rest'.length < cs.length := by
      have hlength := trivia_length cs
      rw [h, List.length_cons] at hlength
      omega
    obtain ⟨ls, last, htokens, hscan⟩ := tokens_eq_some rest'
    refine ⟨⟨(trivia cs).1, rule, text⟩ :: ls, last, ?_, ?_⟩
    · rw [tokens_of_trivia_cons h htoken hlt, htokens]
      rfl
    · intro p
      cases hcut : cut c rest with
      | token kind lexeme rest'' =>
        rw [hcut] at hagrees
        obtain ⟨rfl, rfl, hread⟩ := hagrees
        rw [scan_token h hcut, hscan]
        simp only [items, hread]
      | fault offset found fault =>
        rw [hcut] at hagrees
        rw [scan_fault h hcut]
        simp only [items, hagrees _]
termination_by cs.length

end ApiScenario.TokenGrammar
