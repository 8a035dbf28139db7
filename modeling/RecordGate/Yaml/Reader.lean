import RecordGate.Yaml.Written

/-!
# Reading YAML

Reads a text of one document as a tree. Tables and lists stand in blocks, where the indentation
tells what belongs together, or between brackets. A node may be given a name and stand again under
that name elsewhere; tags are passed over.
-/

namespace RecordGate.Yaml

/-- A node and the place after it, or what is wrong. -/
abbrev Found := Except Problem (Node × Spot)

namespace Spot

/-- The name of an anchor, an alias or a tag: the characters up to a gap or a mark. -/
def nameLength (s : Spot) : Nat :=
  (s.rest.takeWhile fun c =>
    !isBlankChar c && c != '\n' && !Written.isFlowMark c).length

def name (s : Spot) : String × Spot :=
  (String.ofList ((s.rest.take s.nameLength).drop 1), s.advance s.nameLength)

/-- The node that goes by the name that stands here. -/
def recalled (s : Spot) : Found :=
  let (name, t) := s.name
  match s.anchors.lookup name with
  | some node => .ok (node, t)
  | none => .error ⟨"unknown anchor", s.mark, "", .start⟩

/-- Gives a node a name. -/
def anchor (s : Spot) (name : String) (node : Node) : Spot :=
  { s with anchors := (name, node) :: s.anchors }

def isQuote (s : Spot) : Bool := s.rest.head? == some '"' || s.rest.head? == some '\''

/-- Says whether a colon with a gap behind it comes next on this line. -/
def isBeforeColon (s : Spot) : Bool := (s.advanceWhile isBlankChar).isSign ':'

/-- A character that nothing begins with. -/
def isForbidden (s : Spot) : Bool :=
  match s.rest with
  | c :: _ => ['%', '@', '\x60'].contains c
  | [] => false

/-- Says whether a plain scalar may begin here. -/
def beginsPlain (s : Spot) : Bool :=
  let isSign := ['-', '?', ':'].any s.isSign
  let isMark :=
    match s.rest with
    | c :: _ => Written.isFlowMark c || ['#', '&', '*', '!', '|', '>', '\'', '"'].contains c
    | [] => true
  !isSign && !isMark && !s.isForbidden

def noContent (s : Spot) (kind : String) : Problem :=
  if s.isForbidden then
    s.problem "found character that cannot start any token" "while scanning for the next token" s.mark
  else
    s.problem "did not find expected node content" ("while parsing a " ++ kind ++ " node") s.nextMark

end Spot

namespace Reader

/-- The name of a table's member that begins here, when it stands on one line with a colon. -/
def key? (s : Spot) : Option (Node × Spot) :=
  let found : Option (Node × Spot) :=
    if s.isQuote then
      (Written.quoted s).toOption.map fun (text, t) =>
        (.scalar s.mark false (String.ofList text), t)
    else if s.rest.head? == some '*' then s.recalled.toOption
    else if s.beginsPlain then
      let (text, t) := Written.plainLine false s
      some (.scalar s.mark true (String.ofList text), t)
    else none
  found.filter fun (_, t) => t.mark.line == s.mark.line && t.isBeforeColon

mutual

def flow : Nat → Spot → Found
  | 0, s => .error (s.problem "recursion limit exceeded" "" .start)
  | fuel + 1, s =>
      match s.rest with
      | '[' :: _ => flowItems fuel s.mark [] (s.advance 1)
      | '\x7b' :: _ => flowMembers fuel s.mark [] (s.advance 1)
      | '*' :: _ => s.recalled
      | '&' :: _ => do
          let (name, t) := s.name
          let (node, t) ← flow fuel t.skipGap
          return (node, t.anchor name node)
      | '!' :: _ => flow fuel s.name.2.skipGap
      | _ =>
          if s.isQuote then do
            let (text, t) ← Written.quoted s
            return (.scalar s.mark false (String.ofList text), t)
          else
            let (text, t) := Written.plain true 0 s
            if text.isEmpty || !s.beginsPlain then .error (s.noContent "flow")
            else .ok (.scalar s.mark true (String.ofList text), t)

def flowItems : Nat → Mark → List Node → Spot → Found
  | 0, _, _, s => .error (s.problem "recursion limit exceeded" "" .start)
  | fuel + 1, since, done, s =>
      let s := s.skipGap
      if s.rest.head? == some ']' then .ok (.list since done.reverse, s.advance 1)
      else do
        let (item, t) ← flow fuel s
        let t := t.skipGap
        match t.rest with
        | ',' :: _ => flowItems fuel since (item :: done) (t.advance 1)
        | ']' :: _ => return (.list since (item :: done).reverse, t.advance 1)
        | _ => throw (t.problem "did not find expected ',' or ']'" "while parsing a flow sequence" since)

/-- The members of a table between braces. -/
def flowMembers : Nat → Mark → List (Node × Node) → Spot → Found
  | 0, _, _, s => .error (s.problem "recursion limit exceeded" "" .start)
  | fuel + 1, since, done, s =>
      let s := s.skipGap
      if s.rest.head? == some '\x7d' then .ok (.table since done.reverse, s.advance 1)
      else do
        let (name, t) ← flow fuel s
        let t := t.skipGap
        let v := (t.advance 1).skipGap
        let isEmpty := v.rest.head? == some ',' || v.rest.head? == some '\x7d'
        let (value, t) ←
          if t.rest.head? != some ':' then pure (Node.nothing t.mark, t)
          else if isEmpty then pure (Node.nothing v.mark, v)
          else flow fuel v
        let t := t.skipGap
        match t.rest with
        | ',' :: _ => flowMembers fuel since ((name, value) :: done) (t.advance 1)
        | '\x7d' :: _ => return (.table since ((name, value) :: done).reverse, t.advance 1)
        | _ =>
            throw (t.problem "did not find expected ',' or '\x7d'" "while parsing a flow mapping" since)

end

/-- A node that stands on one line with what it belongs to, or that is no list or table in a block;
further lines have a least indentation. -/
def inline (fuel least : Nat) (s : Spot) : Found := do
  let (node, t) ←
    match s.rest with
    | '|' :: _ =>
        let (text, t) := Written.block least s
        pure (Node.scalar s.mark false (String.ofList text), t)
    | '>' :: _ =>
        let (text, t) := Written.block least s
        pure (Node.scalar s.mark false (String.ofList text), t)
    | _ =>
        if s.isQuote || ['[', '\x7b', '*'].any (s.rest.head? == some ·) then flow fuel s
        else
          let (text, t) := Written.plain false least s
          if s.beginsPlain then pure (.scalar s.mark true (String.ofList text), t)
          else .error (s.noContent "block")
  if t.isBeforeColon then
    throw ((t.advanceWhile isBlankChar).problem "mapping values are not allowed in this context" "" .start)
  else return (node, t)

mutual

/-- A node that may be a list or a table in a block, of a least indentation. -/
def block : Nat → Nat → Spot → Found
  | 0, _, s => .error (s.problem "recursion limit exceeded" "" .start)
  | fuel + 1, least, s =>
      if s.isSign '-' then entries fuel s.mark [] s
      else if s.rest.head? == some '&' then do
        let (name, t) := s.name
        let (node, t) ← block fuel least t.skipGap
        return (node, t.anchor name node)
      else if s.rest.head? == some '!' then block fuel least s.name.2.skipGap
      else if (key? s).isSome then members fuel s.mark [] s
      else inline fuel least s

def entries : Nat → Mark → List Node → Spot → Found
  | 0, _, _, s => .error (s.problem "recursion limit exceeded" "" .start)
  | fuel + 1, since, done, s => do
      let dash := s.advance 1
      let t := dash.skipGap
      let (item, t) ←
        if t.atEnd || Nat.ble t.mark.column since.column then pure (Node.nothing dash.mark, dash)
        else block fuel (since.column + 1) t
      let u := t.skipGap
      if u.atEnd || Nat.blt u.mark.column since.column then
        return (.list since (item :: done).reverse, t)
      else if u.mark.column == since.column then
        if u.isSign '-' then entries fuel since (item :: done) u
        else return (.list since (item :: done).reverse, t)
      else throw (u.problem "did not find expected '-' indicator" "while parsing a block collection" since)

/-- The members of a table, each name in the same column. -/
def members : Nat → Mark → List (Node × Node) → Spot → Found
  | 0, _, _, s => .error (s.problem "recursion limit exceeded" "" .start)
  | fuel + 1, since, done, s =>
      match key? s with
      | none =>
          if s.isSign '-' || s.rest.head?.any Written.isFlowMark then
            .error (s.problem "did not find expected key" "while parsing a block mapping" since)
          else
            let (_, t) := Written.plain false 0 s
            .error (t.skipGap.problem "could not find expected ':'" "while scanning a simple key" s.mark)
      | some (name, t) => do
          let colon := (t.advanceWhile isBlankChar).advance 1
          let v := colon.skipGap
          let sameLine := v.mark.line == colon.mark.line
          let (value, t) ←
            if v.atEnd then pure (Node.nothing colon.mark, colon)
            else if sameLine && v.isSign '-' then
              throw (v.problem "block sequence entries are not allowed in this context" "" .start)
            else if sameLine && (v.rest.head? == some '&' || v.rest.head? == some '!') then
              block fuel (since.column + 1) v
            else if sameLine then inline fuel (since.column + 1) v
            else if Nat.blt since.column v.mark.column then block fuel (since.column + 1) v
            else if v.mark.column == since.column && v.isSign '-' then entries fuel v.mark [] v
            else pure (Node.nothing colon.mark, colon)
          let u := t.skipGap
          if u.atEnd || Nat.blt u.mark.column since.column then
            return (.table since ((name, value) :: done).reverse, t)
          else if u.mark.column == since.column then members fuel since ((name, value) :: done) u
          else throw (u.problem "did not find expected key" "while parsing a block mapping" since)

end

/-- Moves over directives and the mark of the start of a document. -/
def opening : Nat → Spot → Spot
  | 0, s => s
  | fuel + 1, s =>
      let s := s.skipGap
      if s.isRule '-' then (s.advance 3).skipGap
      else if s.mark.column == 0 && s.rest.head? == some '%' then opening fuel (s.advanceWhile (· != '\n'))
      else s

/-- What may follow a document: nothing, or the mark of its end. -/
def closing (s : Spot) : Option Problem :=
  let s := s.skipGap
  let t := if s.isRule '.' then (s.advance 3).skipGap else s
  if t.rest.isEmpty then none
  else if t.isRule '-' then
    some ⟨"deserializing from YAML containing more than one document is not supported", .start, "",
      .start⟩
  else some (t.problem "did not find expected <document start>" "" .start)

end Reader

/-- Reads a text of one document; there is no tree where the text holds nothing. -/
def read (text : String) : Except Problem (Option Node) := do
  let fuel := 4 * text.length + 16
  let s := Reader.opening fuel (Spot.ofText text)
  if s.atEnd then
    match Reader.closing s with
    | some p => throw p
    | none => return none
  else
    let (node, t) ← Reader.block fuel 0 s
    match Reader.closing t with
    | some p => throw p
    | none => return some node

end RecordGate.Yaml
