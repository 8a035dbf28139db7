import RecordGate.Uuid

/-!
# Faults of identifiers

Says what is wrong with a text that is no identifier: a character that cannot stand in one, the
length of a text without hyphens, the number of groups, or the length of a group.
-/

namespace RecordGate.Uuid

/-- The text inside braces or behind the beginning `urn:uuid:`, with its distance from the start; and
whether the text is bare. -/
def inner (s : List Char) : List Char × Nat × Bool :=
  match afterName? s with
  | some r => (r, 9, false)
  | none =>
      if s.head? == some '\x7b' && s.getLast? == some '\x7d' then ((s.drop 1).dropLast, 1, false)
      else (s, 0, true)

/-- The first character that is neither a hexadecimal digit nor a hyphen, and the bytes before it. -/
def strange? (offset : Nat) : List Char → Option (Char × Nat)
  | [] => none
  | c :: r =>
      if c == '-' || (hexDigit? c).isSome then strange? (offset + c.utf8Size) r else some (c, offset)

def groupLengths : List Nat := [8, 4, 4, 4, 12]

/-- The first group of a wrong length among the first four, or else the last one. -/
def wrongGroup (sizes : List Nat) : Nat :=
  (((sizes.zip groupLengths).take 4).findIdx? fun (n, m) => n != m).getD 4

/-- What is wrong with a text that is no identifier. -/
def fault (raw : String) : String :=
  let (s, offset, bare) := inner raw.toList
  match strange? offset s with
  | some (c, place) =>
      "invalid character: expected an optional prefix of `urn:uuid:` followed by [0-9a-fA-F-], found `" ++
        String.ofList [c] ++ "` at " ++ toString (place + 1)
  | none =>
      let sizes := (Text.pieces '-' s).map List.length
      let group := wrongGroup sizes
      if bare && sizes.length == 1 then
        "invalid length: expected length 32 for simple format, found " ++ toString raw.length
      else if sizes.length != 5 then
        "invalid group count: expected 5, found " ++ toString sizes.length
      else
        "invalid group length in group " ++ toString group ++ ": expected " ++
          toString (groupLengths[group]?.getD 12) ++ ", found " ++ toString (sizes[group]?.getD 0)

end RecordGate.Uuid
