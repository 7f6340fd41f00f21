import ApiScenario.Proofs.FrontReading
import ApiScenario.Target.JUnitTests
import ApiScenario.Target.RustTests

/-!
# What status checks mean

The line that checks a status is read back from its text, as the comparisons that it spells
(`condition?`), and these are worked out with the integers of the language that it is written in
(`evaluation`): words of 64 bits in Rust, and short and long integers in Java, where a short one is
widened if it meets a long one. A line with a literal that its type does not hold has no meaning at
all, so that a check that can be worked out is also one that compiles.

The lines of both targets let the same statuses pass, whatever integers a check is given
(`status_checks_agree`).
-/

namespace ApiScenario

/-! ## Comparisons -/

/-- How two integers are compared. -/
inductive Comparator where
  | equal
  | unequal
  | less
  | lessOrEqual
  | greater
  | greaterOrEqual
deriving DecidableEq

namespace Comparator

section Holds

variable {α : Type} [DecidableEq α] [LT α] [LE α] [DecidableLT α] [DecidableLE α]

/-- Whether a comparison holds. -/
def holds : Comparator → α → α → Bool
  | equal, a, b => decide (a = b)
  | unequal, a, b => decide (a ≠ b)
  | less, a, b => decide (a < b)
  | lessOrEqual, a, b => decide (a ≤ b)
  | greater, a, b => decide (b < a)
  | greaterOrEqual, a, b => decide (b ≤ a)

/-- Words are compared as the integers that they stand for. -/
theorem holds_eq_holds_toInt {toInt : α → Int} (heq : ∀ {a b}, toInt a = toInt b ↔ a = b)
    (hlt : ∀ {a b}, a < b ↔ toInt a < toInt b) (hle : ∀ {a b}, a ≤ b ↔ toInt a ≤ toInt b)
    (r : Comparator) (a b : α) : r.holds a b = r.holds (toInt a) (toInt b) := by
  cases r <;> simp [holds, heq, hlt, hle]

end Holds

end Comparator

/-- Two operands and how they are compared. -/
structure Comparison (α : Type) where
  left : α
  comparator : Comparator
  right : α
deriving DecidableEq

/-- How a language works out comparisons. -/
structure Evaluation (α : Type) where
  Value : Type
  /-- The value of an operand, if it is one that compiles. -/
  value? : α → Option Value
  compare : Comparator → Value → Value → Bool
  /-- The integer that a value stands for. -/
  toInt : Value → Int
  compare_eq : ∀ r a b, compare r a b = r.holds (toInt a) (toInt b)

namespace Evaluation

variable {α : Type} (E : Evaluation α)

/-- Whether a comparison holds, if it compiles. -/
def holds? (c : Comparison α) : Option Bool := do
  let a ← E.value? c.left
  let b ← E.value? c.right
  return E.compare c.comparator a b

/-- Whether all of some comparisons hold, if all of them compile. -/
def verdict? : List (Comparison α) → Option Bool
  | [] => some true
  | c :: cs => do
    -- What does not compile is refused even where it would not be reached.
    let first ← E.holds? c
    let others ← verdict? cs
    return first && others

/-- The integer that the value of an operand stands for, if the operand compiles. -/
def worth? (a : α) : Option Int := (E.value? a).map E.toInt

variable {E}

theorem holds?_eq {c : Comparison α} {n m : Int} (hn : E.worth? c.left = some n)
    (hm : E.worth? c.right = some m) : E.holds? c = some (c.comparator.holds n m) := by
  obtain ⟨a, ha, rfl⟩ := Option.map_eq_some_iff.mp hn
  obtain ⟨b, hb, rfl⟩ := Option.map_eq_some_iff.mp hm
  rw [holds?, ha, hb, ← E.compare_eq]
  rfl

theorem verdict?_cons {c : Comparison α} {cs : List (Comparison α)} {n m : Int} {b : Bool}
    (hn : E.worth? c.left = some n) (hm : E.worth? c.right = some m)
    (hcs : E.verdict? cs = some b) : E.verdict? (c :: cs) = some (c.comparator.holds n m && b) := by
  rw [verdict?, holds?_eq hn hm, hcs]
  rfl

end Evaluation

/-! ## Rust -/

namespace RustTests

/-- What a line compares. -/
inductive Operand where
  | literal (n : Int)
  | status
deriving DecidableEq

/-- Everything is a word of 64 bits. A status is made one when the answer is captured. -/
def evaluation (s : UInt16) : Evaluation Operand where
  Value := Int64
  value?
    | .literal n => Decimal.fit? n
    | .status => some (Int64.ofNat s.toNat)
  compare r a b := r.holds a b
  toInt := Int64.toInt
  compare_eq := Comparator.holds_eq_holds_toInt Int64.toInt_inj Int64.lt_iff_toInt_lt
    Int64.le_iff_toInt_le

/-- The operand at the front of a text, and what follows it. -/
def operand? (cs : List Char) : Option (Operand × List Char) :=
  match Front.integer? cs with
  | some (n, rest) => some (.literal n, rest)
  | none => (Front.word? "resp.status" cs).map fun rest => (.status, rest)

/-- How a range is bounded by its end, and what follows the mark that says so. -/
def bound? (cs : List Char) : Option (Comparator × List Char) :=
  match Front.word? "..=" cs with
  | some rest => some (.lessOrEqual, rest)
  | none => (Front.word? ".." cs).map fun rest => (.less, rest)

/-- The comparisons that a line asserts: that two operands are equal, or that one is in a range. -/
def condition? (cs : List Char) : Option (List (Comparison Operand)) :=
  match Front.word? "assert_eq!(" cs with
  | some cs => do
    let (a, cs) ← operand? cs
    let cs ← Front.word? ", " cs
    let (b, cs) ← operand? cs
    let [] ← Front.word? ");" cs | none
    return [⟨a, .equal, b⟩]
  | none => do
    let cs ← Front.word? "assert!((" cs
    let (start, cs) ← operand? cs
    let (bound, cs) ← bound? cs
    let (stop, cs) ← operand? cs
    let cs ← Front.word? ").contains(&" cs
    let (a, cs) ← operand? cs
    -- What is said in case of failure has one place for a value.
    let cs ← Front.word? "), " cs
    let (_, cs) ← Front.literal? cs
    let cs ← Front.word? ", " cs
    let (_, cs) ← operand? cs
    let [] ← Front.word? ");" cs | none
    return [⟨start, .lessOrEqual, a⟩, ⟨a, bound, stop⟩]

/-- Whether a line lets a status pass, if it compiles. -/
def accepts? (line : List Char) (s : UInt16) : Option Bool :=
  (condition? line).bind (evaluation s).verdict?

theorem worth?_literal (s : UInt16) (n : Int64) :
    (evaluation s).worth? (.literal n.toInt) = some n.toInt := by
  show (Decimal.fit? n.toInt).map Int64.toInt = _
  rw [Decimal.fit?_toInt]
  rfl

theorem worth?_status (s : UInt16) : (evaluation s).worth? .status = some (s.toNat : Int) := by
  have hs : s.toNat < 2 ^ 63 := Nat.lt_trans s.toNat_lt (by decide)
  exact congrArg some (Int64.toInt_ofNat_of_lt hs)

theorem operand?_number (n : Int64) {w : String} (h : Front.leads (!·.isDigit) w = true)
    (rest : List Char) :
    operand? (Decimal.chars n ++ (w.toList ++ rest))
      = some (.literal n.toInt, w.toList ++ rest) := by
  rw [operand?, Front.integer?_number n h]

theorem operand?_status (rest : List Char) :
    operand? ("resp.status".toList ++ rest) = some (.status, rest) := by
  rw [operand?, Front.integer?_word rfl, Front.word?_append]
  rfl

theorem bound?_inclusive (rest : List Char) :
    bound? ("..=".toList ++ rest) = some (.lessOrEqual, rest) := by
  rw [bound?, Front.word?_append]

/-- A line that asks for a status is read. -/
theorem condition?_statusEquals (code : Int64) :
    condition? (check (.statusEquals code)).chars
      = some [⟨.status, .equal, .literal code.toInt⟩] := by
  have hline : (check (.statusEquals code)).chars = "assert_eq!(".toList ++ ("resp.status".toList ++
      (", ".toList ++ (Decimal.chars code ++ (");".toList ++ [])))) := by
    simp [check, Line.chars, Fragment.chars]
  rw [hline, condition?, Front.word?_append]
  simp only [operand?_status, Front.word?_append, Option.bind_eq_bind, Option.bind_some,
    operand?_number code (w := ");") rfl]
  rfl

/-- A line that asks for a status in a range is read. -/
theorem condition?_statusRange (start stop : Int64) :
    condition? (check (.statusRange start stop)).chars
      = some [⟨.literal start.toInt, .lessOrEqual, .status⟩,
        ⟨.status, .lessOrEqual, .literal stop.toInt⟩] := by
  have hline : ∃ message, (check (.statusRange start stop)).chars = "assert!((".toList ++
      (Decimal.chars start ++ ("..=".toList ++ (Decimal.chars stop ++ (").contains(&".toList ++
        ("resp.status".toList ++ ("), ".toList ++ (Literal.quoted message ++ (", ".toList ++
          ("resp.status".toList ++ (");".toList ++ [])))))))))) := by
    refine ⟨("Status code should be in range [" ++ Decimal.text start ++ ".." ++
        Decimal.text stop ++ "], got \x7b\x7d").toList, ?_⟩
    simp [check, Line.chars, Fragment.chars]
  obtain ⟨message, hline⟩ := hline
  rw [hline, condition?, Front.word?_of_clash rfl]
  simp only [operand?_status, Front.word?_append, Option.bind_eq_bind, Option.bind_some,
    operand?_number start (w := "..=") rfl, operand?_number stop (w := ").contains(&") rfl,
    bound?_inclusive, Front.literal?_quoted]
  rfl

theorem accepts?_statusEquals (code : Int64) (s : UInt16) :
    accepts? (check (.statusEquals code)).chars s
      = some (decide ((s.toNat : Int) = code.toInt)) := by
  rw [accepts?, condition?_statusEquals, Option.bind_some,
    Evaluation.verdict?_cons (worth?_status s) (worth?_literal s code) rfl, Bool.and_true]
  rfl

theorem accepts?_statusRange (start stop : Int64) (s : UInt16) :
    accepts? (check (.statusRange start stop)).chars s
      = some (decide (start.toInt ≤ s.toNat ∧ (s.toNat : Int) ≤ stop.toInt)) := by
  rw [accepts?, condition?_statusRange, Option.bind_some,
    Evaluation.verdict?_cons (worth?_literal s start) (worth?_status s)
      (Evaluation.verdict?_cons (worth?_status s) (worth?_literal s stop) rfl), Bool.and_true,
    Bool.decide_and]
  rfl

end RustTests

/-! ## Java -/

namespace JUnitTests

/-- An integer literal: what its numeral says, and whether the letter of long integers follows. -/
structure IntegerLiteral where
  value : Int
  long : Bool
deriving DecidableEq

/-- What a line compares. -/
inductive Operand where
  | literal (l : IntegerLiteral)
  /-- The status of an answer, cast to a long integer or not. -/
  | status (cast : Bool)
deriving DecidableEq

/-- Integers are short or long. -/
inductive Value where
  | int (n : Int32)
  | long (n : Int64)

namespace Value

/-- An integer widened to a long one. -/
def toLong : Value → Int64
  | int n => n.toInt64
  | long n => n

/-- Short integers are compared as such. If one of the two is long, the other is widened. -/
def compare (r : Comparator) : Value → Value → Bool
  | int a, int b => r.holds a b
  | a, b => r.holds a.toLong b.toLong

def toInt : Value → Int
  | int n => n.toInt
  | long n => n.toInt

theorem toInt_toLong (v : Value) : v.toLong.toInt = v.toInt := by
  cases v with
  | int n => exact Int32.toInt_toInt64 n
  | long n => rfl

theorem compare_eq (r : Comparator) (a b : Value) :
    compare r a b = r.holds a.toInt b.toInt := by
  have hlong : r.holds a.toLong b.toLong = r.holds a.toInt b.toInt := by
    rw [Comparator.holds_eq_holds_toInt Int64.toInt_inj Int64.lt_iff_toInt_lt
      Int64.le_iff_toInt_le, toInt_toLong, toInt_toLong]
  cases a with
  | int n =>
    cases b with
    | int m =>
      exact Comparator.holds_eq_holds_toInt Int32.toInt_inj Int32.lt_iff_toInt_lt
        Int32.le_iff_toInt_le r n m
    | long m => exact hlong
  | long n => exact hlong

end Value

namespace IntegerLiteral

/-- The value of a literal, if its type has it. -/
def value? (l : IntegerLiteral) : Option Value :=
  if l.long then (Decimal.fit? l.value).map .long
  else if -2147483648 ≤ l.value ∧ l.value ≤ 2147483647 then some (.int (Int32.ofInt l.value))
  else none

/-- A literal has the letter only where it is needed, and then it suffices. -/
structure WellMarked (l : IntegerLiteral) : Prop where
  short : l.long = false → -2147483648 ≤ l.value ∧ l.value ≤ 2147483647
  long : l.long = true → (l.value < -2147483648 ∨ 2147483647 < l.value) ∧
    -9223372036854775808 ≤ l.value ∧ l.value ≤ 9223372036854775807

/-- The literal that is written for an integer. -/
def ofInt64 (n : Int64) : IntegerLiteral := ⟨n.toInt, !fitsInt n⟩

end IntegerLiteral

/-- The status of an answer is a short integer. -/
def evaluation (s : UInt16) : Evaluation Operand where
  Value := Value
  value?
    | .literal l => l.value?
    | .status false => some (.int (Int32.ofNat s.toNat))
    | .status true => some (.long (Int32.ofNat s.toNat).toInt64)
  compare := Value.compare
  toInt := Value.toInt
  compare_eq := Value.compare_eq

theorem fitsInt_iff (n : Int64) :
    fitsInt n = true ↔ -2147483648 ≤ n.toInt ∧ n.toInt ≤ 2147483647 := by
  have hmin : Int32.minValue.toInt = -2147483648 := rfl
  have hmax : Int32.maxValue.toInt = 2147483647 := rfl
  simp [fitsInt, hmin, hmax]

theorem wellMarked_ofInt64 (n : Int64) : (IntegerLiteral.ofInt64 n).WellMarked where
  short h := (fitsInt_iff n).mp (by simpa [IntegerLiteral.ofInt64] using h)
  long h := by
    have hmin : -9223372036854775808 ≤ n.toInt := Int64.minValue_le_toInt n
    have hmax : n.toInt ≤ 9223372036854775807 := Int64.toInt_le n
    have hfits : ¬(-2147483648 ≤ n.toInt ∧ n.toInt ≤ 2147483647) := by
      rw [← fitsInt_iff]
      simpa [IntegerLiteral.ofInt64] using h
    exact ⟨by simp only [IntegerLiteral.ofInt64]; omega, hmin, hmax⟩

/-! ### Reading -/

/-- The literal at the front of a text, and what follows it. -/
def literal? (cs : List Char) : Option (IntegerLiteral × List Char) := do
  let (n, cs) ← Front.integer? cs
  match Front.word? "L" cs with
  | some rest => return (⟨n, true⟩, rest)
  | none => return (⟨n, false⟩, cs)

/-- Whether the status at the front of a text is cast, and what follows it. -/
def status? (cs : List Char) : Option (Bool × List Char) :=
  match Front.word? "(long) " cs with
  | some cs => (Front.word? "resp.statusCode()" cs).map fun rest => (true, rest)
  | none => (Front.word? "resp.statusCode()" cs).map fun rest => (false, rest)

/-- The operand at the front of a text, and what follows it. -/
def operand? (cs : List Char) : Option (Operand × List Char) :=
  match literal? cs with
  | some (l, rest) => some (.literal l, rest)
  | none => (status? cs).map fun (cast, rest) => (.status cast, rest)

/-- How comparators are written. -/
def symbol : Comparator → String
  | .equal => " == "
  | .unequal => " != "
  | .less => " < "
  | .lessOrEqual => " <= "
  | .greater => " > "
  | .greaterOrEqual => " >= "

/-- The comparator at the front of a text, and what follows it. -/
def comparator? (cs : List Char) : Option (Comparator × List Char) :=
  [.equal, .unequal, .less, .lessOrEqual, .greater, .greaterOrEqual].findSome? fun r =>
    (Front.word? (symbol r) cs).map fun rest => (r, rest)

/-- The comparison at the front of a text, and what follows it. -/
def comparison? (cs : List Char) : Option (Comparison Operand × List Char) := do
  let (a, cs) ← operand? cs
  let (r, cs) ← comparator? cs
  let (b, cs) ← operand? cs
  return (⟨a, r, b⟩, cs)

/-- The comparison at the front of a text, or the two that are joined there, and what follows. -/
def conjunction? (cs : List Char) : Option (List (Comparison Operand) × List Char) := do
  let (c, cs) ← comparison? cs
  match Front.word? " && " cs with
  | some cs => do
    let (d, cs) ← comparison? cs
    return ([c, d], cs)
  | none => return ([c], cs)

/-- The comparisons that a line asserts: that two operands are equal, or a condition. -/
def condition? (cs : List Char) : Option (List (Comparison Operand)) :=
  match Front.word? "assertEquals(" cs with
  | some cs => do
    let (a, cs) ← operand? cs
    let cs ← Front.word? ", " cs
    let (b, cs) ← operand? cs
    let [] ← Front.word? ");" cs | none
    return [⟨a, .equal, b⟩]
  | none => do
    let cs ← Front.word? "assertTrue(" cs
    let (c, cs) ← conjunction? cs
    let cs ← Front.word? ", " cs
    let (_, cs) ← Front.literal? cs
    let [] ← Front.word? ");" cs | none
    return c

/-- Whether a line lets a status pass, if it compiles. -/
def accepts? (line : List Char) (s : UInt16) : Option Bool :=
  (condition? line).bind (evaluation s).verdict?

-- Without the letter, a literal that is out of reach of short integers does not compile.
example : accepts? "assertEquals(3000000000, resp.statusCode());".toList 200 = none := by
  decide +kernel

theorem worth?_literal (s : UInt16) (n : Int64) :
    (evaluation s).worth? (.literal (.ofInt64 n)) = some n.toInt := by
  show (IntegerLiteral.ofInt64 n).value?.map Value.toInt = _
  cases hfits : fitsInt n with
  | true =>
    have hn := (fitsInt_iff n).mp hfits
    have hvalue : (IntegerLiteral.ofInt64 n).value? = some (.int (Int32.ofInt n.toInt)) := by
      simp [IntegerLiteral.value?, IntegerLiteral.ofInt64, hfits, hn]
    rw [hvalue]
    exact congrArg some (Int32.toInt_ofInt_of_le hn.1 (Int.lt_of_le_of_lt hn.2 (by decide)))
  | false =>
    have hvalue : (IntegerLiteral.ofInt64 n).value? = some (.long n) := by
      simp [IntegerLiteral.value?, IntegerLiteral.ofInt64, hfits, Decimal.fit?_toInt]
    rw [hvalue]
    rfl

theorem worth?_status (s : UInt16) (cast : Bool) :
    (evaluation s).worth? (.status cast) = some (s.toNat : Int) := by
  have hs : s.toNat < 2 ^ 31 := Nat.lt_trans s.toNat_lt (by decide)
  have hvalue : (Int32.ofNat s.toNat).toInt = s.toNat := Int32.toInt_ofNat_of_lt hs
  cases cast with
  | true => exact congrArg some ((Int32.toInt_toInt64 _).trans hvalue)
  | false => exact congrArg some hvalue

theorem operand?_integer (n : Int64) {w : String} (h₁ : Front.leads (!·.isDigit) w = true)
    (h₂ : clash "L".toList w.toList = true) (rest : List Char) :
    operand? ((integer n).chars ++ (w.toList ++ rest))
      = some (.literal (.ofInt64 n), w.toList ++ rest) := by
  have hread : literal? ((integer n).chars ++ (w.toList ++ rest))
      = some (.ofInt64 n, w.toList ++ rest) := by
    cases hfits : fitsInt n with
    | true =>
      have hchars : (integer n).chars = Decimal.chars n := by
        simp [integer, hfits, chars_cons, Fragment.chars]
      rw [hchars, literal?, Front.integer?_number n h₁]
      simp [Front.word?_of_clash h₂, IntegerLiteral.ofInt64, hfits]
    | false =>
      have hchars : (integer n).chars = Decimal.chars n ++ "L".toList := by
        simp [integer, hfits, chars_cons, Fragment.chars]
      rw [hchars, List.append_assoc, literal?, Front.integer?_number n (w := "L") rfl]
      simp only [Option.bind_eq_bind, Option.bind_some, Front.word?_append]
      simp [IntegerLiteral.ofInt64, hfits]
  rw [operand?, hread]

theorem literal?_word {w : String} (h : Front.leads (fun c => c != '-' && !c.isDigit) w = true)
    (rest : List Char) : literal? (w.toList ++ rest) = none := by
  rw [literal?, Front.integer?_word h]
  rfl

/-- How a status is written. -/
def statusText : Bool → String
  | false => "resp.statusCode()"
  | true => "(long) resp.statusCode()"

theorem operand?_status (cast : Bool) (rest : List Char) :
    operand? ((statusText cast).toList ++ rest) = some (.status cast, rest) := by
  cases cast with
  | false =>
    simp only [statusText]
    rw [operand?, literal?_word rfl, status?, Front.word?_of_clash rfl, Front.word?_append]
    rfl
  | true =>
    have hwords : (statusText true).toList = "(long) ".toList ++ "resp.statusCode()".toList := by
      simp [statusText]
    rw [hwords, List.append_assoc, operand?, literal?_word rfl, status?, Front.word?_append]
    simp only [Front.word?_append]
    rfl

theorem comparator?_symbol (r : Comparator) (rest : List Char) :
    comparator? ((symbol r).toList ++ rest) = some (r, rest) := by
  -- With the space behind it, no symbol begins another.
  have hother : ∀ r', r' ≠ r → Front.word? (symbol r') ((symbol r).toList ++ rest) = none := by
    intro r' hne
    apply Front.word?_of_clash
    revert hne
    cases r <;> cases r' <;> decide
  cases r <;> simp [comparator?, hother]

/-- The comparison of a status with a written integer is read. -/
theorem comparison?_status (r : Comparator) (n : Int64) {w : String}
    (h₁ : Front.leads (!·.isDigit) w = true) (h₂ : clash "L".toList w.toList = true)
    (rest : List Char) :
    comparison? ((statusText false).toList ++ ((symbol r).toList ++ ((integer n).chars ++
        (w.toList ++ rest))))
      = some (⟨.status false, r, .literal (.ofInt64 n)⟩, w.toList ++ rest) := by
  simp only [comparison?, operand?_status, comparator?_symbol, operand?_integer n h₁ h₂,
    Option.bind_eq_bind, Option.bind_some]
  rfl

/-- A line that asks for a status is read. The status is cast if the literal has the letter. -/
theorem condition?_statusEquals (code : Int64) :
    condition? (check (.statusEquals code)).chars
      = some [⟨.literal (.ofInt64 code), .equal, .status (!fitsInt code)⟩] := by
  have hline : (check (.statusEquals code)).chars = "assertEquals(".toList ++
      ((integer code).chars ++ (", ".toList ++ ((statusText (!fitsInt code)).toList ++
        (");".toList ++ [])))) := by
    -- The cast and the letter are decided apart; only here the two decisions meet.
    cases hfits : fitsInt code <;>
      simp [check, hfits, chars_append, Line.ofWords, chars_cons, Fragment.chars, statusText]
  rw [hline, condition?, Front.word?_append]
  simp only [operand?_integer code (w := ", ") rfl rfl, operand?_status, Front.word?_append,
    Option.bind_eq_bind, Option.bind_some]
  rfl

/-- A line that asks for a status in a range is read. -/
theorem condition?_statusRange (start stop : Int64) :
    condition? (check (.statusRange start stop)).chars
      = some [⟨.status false, .greaterOrEqual, .literal (.ofInt64 start)⟩,
        ⟨.status false, .lessOrEqual, .literal (.ofInt64 stop)⟩] := by
  have hline : ∃ message, (check (.statusRange start stop)).chars = "assertTrue(".toList ++
      ((statusText false).toList ++ ((symbol .greaterOrEqual).toList ++ ((integer start).chars ++
        (" && ".toList ++ ((statusText false).toList ++ ((symbol .lessOrEqual).toList ++
          ((integer stop).chars ++ (", ".toList ++ (Literal.quoted message ++
            (");".toList ++ [])))))))))) := by
    refine ⟨("Status code should be in range [" ++ Decimal.text start ++ ".." ++
        Decimal.text stop ++ "]").toList, ?_⟩
    simp [check, rangeMessage, chars_append, Line.ofWords, chars_cons, Fragment.chars,
      statusText, symbol]
  obtain ⟨message, hline⟩ := hline
  rw [hline, condition?, Front.word?_of_clash rfl]
  simp only [Front.word?_append, conjunction?, comparison?_status _ start (w := " && ") rfl rfl,
    comparison?_status _ stop (w := ", ") rfl rfl, Front.literal?_quoted, Option.bind_eq_bind,
    Option.bind_some, Option.pure_def]

theorem accepts?_statusEquals (code : Int64) (s : UInt16) :
    accepts? (check (.statusEquals code)).chars s
      = some (decide ((s.toNat : Int) = code.toInt)) := by
  rw [accepts?, condition?_statusEquals, Option.bind_some,
    Evaluation.verdict?_cons (worth?_literal s code) (worth?_status s _) rfl, Bool.and_true]
  exact congrArg some (decide_eq_decide.mpr eq_comm)

theorem accepts?_statusRange (start stop : Int64) (s : UInt16) :
    accepts? (check (.statusRange start stop)).chars s
      = some (decide (start.toInt ≤ s.toNat ∧ (s.toNat : Int) ≤ stop.toInt)) := by
  rw [accepts?, condition?_statusRange, Option.bind_some,
    Evaluation.verdict?_cons (worth?_status s _) (worth?_literal s start)
      (Evaluation.verdict?_cons (worth?_status s _) (worth?_literal s stop) rfl), Bool.and_true,
    Bool.decide_and]
  rfl

end JUnitTests

/-! ## Both targets -/

/-- **Status checks mean the same in both targets.** Read back from their text, the lines of both
let a status pass exactly if it is the code, or is in the range, that the check is given. In Java
the letter of long integers stands behind those literals that need it and no others, and a status is
cast exactly if the literal that it has to be equal to has the letter. -/
theorem status_checks_agree (code start stop : Int64) (s : UInt16) :
    (RustTests.accepts? (RustTests.check (.statusEquals code)).chars s
        = some (decide ((s.toNat : Int) = code.toInt)) ∧
      JUnitTests.accepts? (JUnitTests.check (.statusEquals code)).chars s
        = some (decide ((s.toNat : Int) = code.toInt))) ∧
    (RustTests.accepts? (RustTests.check (.statusRange start stop)).chars s
        = some (decide (start.toInt ≤ s.toNat ∧ (s.toNat : Int) ≤ stop.toInt)) ∧
      JUnitTests.accepts? (JUnitTests.check (.statusRange start stop)).chars s
        = some (decide (start.toInt ≤ s.toNat ∧ (s.toNat : Int) ≤ stop.toInt))) ∧
    (∃ l cast, JUnitTests.condition? (JUnitTests.check (.statusEquals code)).chars
        = some [⟨.literal l, .equal, .status cast⟩] ∧
      l.WellMarked ∧ (cast = true ↔ l.long = true)) ∧
    ∃ l l', JUnitTests.condition? (JUnitTests.check (.statusRange start stop)).chars
        = some [⟨.status false, .greaterOrEqual, .literal l⟩,
          ⟨.status false, .lessOrEqual, .literal l'⟩] ∧
      l.WellMarked ∧ l'.WellMarked := by
  refine ⟨⟨?_, ?_⟩, ⟨?_, ?_⟩, ?_, ?_⟩
  · exact RustTests.accepts?_statusEquals code s
  · exact JUnitTests.accepts?_statusEquals code s
  · exact RustTests.accepts?_statusRange start stop s
  · exact JUnitTests.accepts?_statusRange start stop s
  · exact ⟨_, _, JUnitTests.condition?_statusEquals code, JUnitTests.wellMarked_ofInt64 code,
      Iff.rfl⟩
  · exact ⟨_, _, JUnitTests.condition?_statusRange start stop, JUnitTests.wellMarked_ofInt64 start,
      JUnitTests.wellMarked_ofInt64 stop⟩

end ApiScenario
