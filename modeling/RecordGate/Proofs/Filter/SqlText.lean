import RecordGate.Filter.Sql
import RecordGate.Proofs.Text.Digits

/-!
# Conditions and their texts

A condition is read back from its text: a name up to the quote that is not doubled, a relation up to
a blank, a placeholder up to its last digit, and a join in its parentheses. So the text of a condition
can be read in one way only.
-/

namespace RecordGate.Sql

/-- The name before a quote that is not doubled, and the text behind that quote. -/
def readName : List Char → Option (List Char × List Char)
  | [] => none
  | '"' :: '"' :: s => (readName s).map fun (name, rest) => ('"' :: name, rest)
  | '"' :: s => some ([], s)
  | c :: s => (readName s).map fun (name, rest) => (c :: name, rest)

/-- A relation with a blank after it. -/
def readSymbol (s : List Char) : Option (Relation × List Char) :=
  [.equal, .distinct, .greater, .greaterOrEqual, .less, .lessOrEqual].findSome? fun rel =>
    (Text.dropStart? (rel.text.toList ++ [' ']) s).map fun rest => (rel, rest)

def readPlaceholder : List Char → Option (Nat × List Char)
  | '$' :: s => some (digitsFrom 0 (s.takeWhile isDigit), s.dropWhile isDigit)
  | _ => none

/-- A relation whose column has its first quote before the text. -/
def readRelation (s : List Char) : Option (Expr × List Char) := do
  let (name, s) ← readName s
  let s ← Text.dropStart? [' '] s
  let (rel, s) ← readSymbol s
  let (n, s) ← readPlaceholder s
  return (.relation (String.ofList name) rel n, s)

/-- A search whose column has its first quote before the text. -/
def readPosition (s : List Char) : Option (Expr × List Char) := do
  let (name, s) ← readName s
  let s ← Text.dropStart? [',', ' '] s
  let (n, s) ← readPlaceholder s
  let s ← Text.dropStart? [')', ' ', '>', ' ', '0'] s
  return (.position (String.ofList name) n, s)

/-- The word between two conditions, as the join that it stands for. -/
def readJoin (s : List Char) : Option ((Expr → Expr → Expr) × List Char) :=
  match Text.dropStart? [' ', 'A', 'N', 'D', ' '] s with
  | some rest => some (.and, rest)
  | none => (Text.dropStart? [' ', 'O', 'R', ' '] s).map fun rest => (.or, rest)

/-- A condition at the beginning of a text, and the text behind it. -/
def readExpr (s : List Char) : Option (Expr × List Char) :=
  match s with
  | '"' :: s => readRelation s
  | 's' :: s => (Text.dropStart? ['t', 'r', 'p', 'o', 's', '(', '"'] s).bind readPosition
  | 'T' :: s => (Text.dropStart? ['R', 'U', 'E'] s).map fun rest => (.true, rest)
  | '(' :: s => do
      let (left, rest) ← readExpr s
      let (join, rest) ← readJoin rest
      -- what is left is always shorter, but only what is read shows it
      if rest.length < s.length then
        let (right, rest) ← readExpr rest
        let rest ← Text.dropStart? [')'] rest
        return (join left right, rest)
      else none
  | _ => none
termination_by s.length
decreasing_by
  · simp
  · simp only [List.length_cons]
    omega

theorem readName_doubled {s : List Char} (hs : ∀ r, s ≠ '"' :: r) (name : List Char) :
    readName (doubled name ++ '"' :: s) = some (name, s) := by
  induction name with
  | nil =>
      rw [doubled, List.nil_append, readName]
      exact hs
  | cons c name ih =>
      by_cases hc : c = '"'
      · subst hc
        simp [doubled, readName, ih]
      · simp [doubled, readName, hc, ih]

theorem readSymbol_append (rel : Relation) (s : List Char) :
    readSymbol (rel.text.toList ++ ' ' :: s) = some (rel, s) := by
  cases rel <;> rfl

theorem readPlaceholder_append {s : List Char} (hs : EndsNumber s) (n : Nat) :
    readPlaceholder ('$' :: (Nat.toDigits 10 n ++ s)) = some (n, s) := by
  obtain ⟨hdigits, hrest⟩ :=
    takeWhile_isDigit_append (fun c hc => isDigit_of_mem_toDigits (n := n) hc) hs
  rw [readPlaceholder, hdigits, hrest, digitsFrom_toDigits]

namespace Expr

/-- The characters of a condition. -/
def chars (e : Expr) : List Char := e.text.toList

theorem chars_relation (column : String) (rel : Relation) (n : Nat) :
    (relation column rel n).chars =
      '"' :: (doubled column.toList ++ '"' :: ' ' :: (rel.text.toList ++ ' ' :: '$' ::
        Nat.toDigits 10 n)) := by
  simp [chars, text, quoteName, placeholder]

theorem chars_position (column : String) (n : Nat) :
    (position column n).chars =
      's' :: 't' :: 'r' :: 'p' :: 'o' :: 's' :: '(' :: '"' :: (doubled column.toList ++ '"' :: ',' ::
        ' ' :: '$' :: (Nat.toDigits 10 n ++ [')', ' ', '>', ' ', '0'])) := by
  simp [chars, text, quoteName, placeholder]

/-- The characters of two conditions with a word between them. -/
def joined (word : List Char) (left right : Expr) : List Char :=
  '(' :: (left.chars ++ ' ' :: (word ++ ' ' :: (right.chars ++ [')'])))

theorem chars_and (left right : Expr) :
    (and left right).chars = joined ['A', 'N', 'D'] left right := by
  simp [chars, text, joined]

theorem chars_or (left right : Expr) : (or left right).chars = joined ['O', 'R'] left right := by
  simp [chars, text, joined]

theorem chars_true : Expr.true.chars = ['T', 'R', 'U', 'E'] := rfl

/-- A condition is read at the beginning of any text that does not go on with a digit. -/
def Readable (e : Expr) : Prop := ∀ s, EndsNumber s → readExpr (e.chars ++ s) = some (e, s)

theorem readable_relation (column : String) (rel : Relation) (n : Nat) :
    (relation column rel n).Readable := by
  intro s hs
  have hname := readName_doubled (s := ' ' :: (rel.text.toList ++ ' ' :: '$' ::
    (Nat.toDigits 10 n ++ s))) (by simp) column.toList
  simp only [chars_relation, List.cons_append, List.append_assoc]
  rw [readExpr]
  simp only [readRelation, hname, Option.bind_eq_bind, Option.bind_some, Text.dropStart?,
    beq_self_eq_true, if_true, readSymbol_append, readPlaceholder_append hs, String.ofList_toList,
    Option.pure_def]

theorem readable_position (column : String) (n : Nat) : (position column n).Readable := by
  intro s _
  have hclose : EndsNumber (')' :: ' ' :: '>' :: ' ' :: '0' :: s) := endsNumber_cons (by decide) _
  have hname := readName_doubled (s := ',' :: ' ' :: '$' ::
    (Nat.toDigits 10 n ++ ')' :: ' ' :: '>' :: ' ' :: '0' :: s)) (by simp) column.toList
  simp only [chars_position, List.cons_append, List.append_assoc, List.nil_append]
  rw [readExpr]
  simp only [readPosition, hname, Option.bind_eq_bind, Option.bind_some, Text.dropStart?,
    beq_self_eq_true, if_true, readPlaceholder_append hclose, String.ofList_toList, Option.pure_def]

/-- A join can be read when its word can be, and both its conditions. -/
theorem readExpr_joined {left right : Expr} (hleft : left.Readable) (hright : right.Readable)
    {word : List Char} {join : Expr → Expr → Expr}
    (hword : ∀ s, readJoin (' ' :: (word ++ ' ' :: s)) = some (join, s)) (s : List Char) :
    readExpr (joined word left right ++ s) = some (join left right, s) := by
  have hblank (r : List Char) : EndsNumber (' ' :: r) := endsNumber_cons (by decide) r
  have hclose (r : List Char) : EndsNumber (')' :: r) := endsNumber_cons (by decide) r
  simp only [joined, List.cons_append, List.append_assoc, List.nil_append]
  rw [readExpr]
  have hlength : (right.chars ++ ')' :: s).length <
      (left.chars ++ ' ' :: (word ++ ' ' :: (right.chars ++ ')' :: s))).length := by
    simp only [List.length_append, List.length_cons]
    omega
  simp only [hleft _ (hblank _), hword, Option.bind_eq_bind, Option.bind_some, if_pos hlength,
    hright _ (hclose _), Text.dropStart?, beq_self_eq_true, if_true, Option.pure_def]

theorem readable (e : Expr) : e.Readable := by
  induction e with
  | true =>
      intro s _
      rw [chars_true, readExpr.eq_def]
      rfl
  | relation column rel n => exact readable_relation column rel n
  | position column n => exact readable_position column n
  | and left right ihl ihr =>
      intro s _
      rw [chars_and]
      exact readExpr_joined ihl ihr (fun _ => rfl) s
  | or left right ihl ihr =>
      intro s _
      rw [chars_or]
      exact readExpr_joined ihl ihr (fun _ => rfl) s

/-- The condition that a text is. -/
def read? (text : String) : Option Expr :=
  match readExpr text.toList with
  | some (e, []) => some e
  | _ => none

theorem read?_text (e : Expr) : read? e.text = some e := by
  have h := e.readable [] endsNumber_nil
  rw [List.append_nil] at h
  rw [read?, ← chars, h]

/-- A text is that of one condition at most. -/
theorem text_injective {e f : Expr} (h : e.text = f.text) : e = f := by
  rw [← Option.some.injEq, ← read?_text e, ← read?_text f, h]

end Expr

end RecordGate.Sql
