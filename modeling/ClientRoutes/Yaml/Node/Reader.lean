import ClientRoutes.Yaml.Node

/-
  From the tokens of a YAML text to the node of its only document.

  The readers follow the grammar of tokens: each takes the tokens that are left
  and gives a node and the tokens behind it. A missing key, value or item is the
  empty node. At most `maxDepth` collections may be open at once.
-/

namespace ClientRoutes.Yaml.Node

/-- How many collections may be open at once. -/
def maxDepth : Nat := 128

/-! ## Properties -/

/-- What a tag says once its handle is replaced. -/
def completeTag (handles : List (String × Address)) (handle : String) (suffix : Address) :
    Except Error Tag :=
  if handle.isEmpty then .ok (.ofAddress suffix)
  else match handles.lookup handle with
    | some target => .ok (.ofAddress (target ++ suffix))
    | none => .error .tag

/-- The anchor and tag at the front, in either order. -/
def readProperties (handles : List (String × Address)) (ts : List Token) :
    Except Error (Properties × List Token) :=
  match ts with
  | .anchor name :: .tag handle suffix :: rest => do
    let tag ← completeTag handles handle suffix
    return (⟨some name, some tag⟩, rest)
  | .anchor name :: rest => .ok (⟨some name, none⟩, rest)
  | .tag handle suffix :: .anchor name :: rest => do
    let tag ← completeTag handles handle suffix
    return (⟨some name, some tag⟩, rest)
  | .tag handle suffix :: rest => do
    let tag ← completeTag handles handle suffix
    return (⟨none, some tag⟩, rest)
  | _ => .ok (bare, ts)

/-! ## Places where a node may be missing -/

/-- Whether the front ends an item of a block sequence. -/
def endsItem : List Token → Bool
  | .blockEntry :: _ => true
  | .blockEnd :: _ => true
  | _ => false

/-- Whether the front ends a key or value of a block mapping. -/
def endsEntry : List Token → Bool
  | .key :: _ => true
  | .value :: _ => true
  | .blockEnd :: _ => true
  | _ => false

/-- Whether the front ends an item of a sequence without indentation. -/
def endsLooseItem (ts : List Token) : Bool := endsEntry ts || endsItem ts

/-- Whether the front ends a value inside a flow mapping. -/
def endsFlowValue : List Token → Bool
  | .flowEntry :: _ => true
  | .flowMappingEnd :: _ => true
  | _ => false

/-- Whether the front ends a key inside a flow mapping. -/
def endsFlowKey : List Token → Bool
  | .value :: _ => true
  | ts => endsFlowValue ts

/-- Whether the front ends a value of a single pair in a flow sequence. -/
def endsPairValue : List Token → Bool
  | .flowEntry :: _ => true
  | .flowSequenceEnd :: _ => true
  | _ => false

/-- Whether the front ends a key of a single pair in a flow sequence. -/
def endsPairKey : List Token → Bool
  | .value :: _ => true
  | ts => endsPairValue ts

/-! ## Nodes -/

mutual

/-- A node. `block` allows block collections, and `loose` a sequence whose
dashes are not indented. -/
def read (handles : List (String × Address)) : Nat → Nat → Bool → Bool → List Token →
    Except Error (Node × List Token)
  | 0, _, _, _, _ => .error .arrangement
  | fuel + 1, depth, block, loose, ts =>
    match ts with
    | .reference name :: rest => .ok (.reference name, rest)
    | _ => do
      let (p, ts) ← readProperties handles ts
      match ts, depth with
      | .scalar text plain :: rest, _ => return (.scalar p text plain, rest)
      | .blockEntry :: _, 0 => throw (if loose then .depth else .arrangement)
      | .blockEntry :: _, depth + 1 =>
        if loose then do
          let (items, rest) ← readLooseItems handles fuel depth ts
          return (.sequence p items, rest)
        else if p == bare then throw .arrangement
        else return (.scalar p "" true, ts)
      | .flowSequenceStart :: _, 0 => throw .depth
      | .flowSequenceStart :: rest, depth + 1 => do
        let (items, rest) ← readFlowItems handles fuel depth true rest
        return (.sequence p items, rest)
      | .flowMappingStart :: _, 0 => throw .depth
      | .flowMappingStart :: rest, depth + 1 => do
        let (entries, rest) ← readFlowEntries handles fuel depth true rest
        return (.mapping p entries, rest)
      | .blockSequenceStart :: rest, depth =>
        if !block then
          if p == bare then throw .arrangement else return (.scalar p "" true, ts)
        else match depth with
          | 0 => throw .depth
          | depth + 1 => do
            let (items, rest) ← readItems handles fuel depth rest
            return (.sequence p items, rest)
      | .blockMappingStart :: rest, depth =>
        if !block then
          if p == bare then throw .arrangement else return (.scalar p "" true, ts)
        else match depth with
          | 0 => throw .depth
          | depth + 1 => do
            let (entries, rest) ← readEntries handles fuel depth rest
            return (.mapping p entries, rest)
      | _, _ => if p == bare then throw .arrangement else return (.scalar p "" true, ts)

/-- A node unless `missing` says that there is none. -/
def readOr (handles : List (String × Address)) : Nat → Nat → Bool → Bool → Bool → List Token →
    Except Error (Node × List Token)
  | 0, _, _, _, _, _ => .error .arrangement
  | fuel + 1, depth, block, loose, missing, ts =>
    if missing then .ok (empty, ts) else read handles fuel depth block loose ts

/-- The items of a block sequence up to its end. -/
def readItems (handles : List (String × Address)) : Nat → Nat → List Token →
    Except Error (List Node × List Token)
  | 0, _, _ => .error .arrangement
  | fuel + 1, depth, ts =>
    match ts with
    | .blockEntry :: rest => do
      let (item, rest) ← readOr handles fuel depth true false (endsItem rest) rest
      let (items, rest) ← readItems handles fuel depth rest
      return (item :: items, rest)
    | .blockEnd :: rest => .ok ([], rest)
    | _ => .error .arrangement

/-- The items of a sequence that is not indented. -/
def readLooseItems (handles : List (String × Address)) : Nat → Nat → List Token →
    Except Error (List Node × List Token)
  | 0, _, _ => .error .arrangement
  | fuel + 1, depth, ts =>
    match ts with
    | .blockEntry :: rest => do
      let (item, rest) ← readOr handles fuel depth true false (endsLooseItem rest) rest
      let (items, rest) ← readLooseItems handles fuel depth rest
      return (item :: items, rest)
    | _ => .ok ([], ts)

/-- The entries of a block mapping up to its end. -/
def readEntries (handles : List (String × Address)) : Nat → Nat → List Token →
    Except Error (List (Node × Node) × List Token)
  | 0, _, _ => .error .arrangement
  | fuel + 1, depth, ts =>
    match ts with
    | .key :: rest => do
      let (key, rest) ← readOr handles fuel depth true true (endsEntry rest) rest
      let (value, rest) ← match rest with
        | .value :: rest => readOr handles fuel depth true true (endsEntry rest) rest
        | _ => .ok (empty, rest)
      let (entries, rest) ← readEntries handles fuel depth rest
      return ((key, value) :: entries, rest)
    | .blockEnd :: rest => .ok ([], rest)
    | _ => .error .arrangement

/-- The items of a flow sequence up to its end; every one but the first has a
comma in front. A key begins a mapping of a single pair. -/
def readFlowItems (handles : List (String × Address)) : Nat → Nat → Bool → List Token →
    Except Error (List Node × List Token)
  | 0, _, _, _ => .error .arrangement
  | fuel + 1, depth, first, ts =>
    match ts with
    | .flowSequenceEnd :: rest => .ok ([], rest)
    | _ => do
      let ts ← match first, ts with
        | true, ts => .ok ts
        | false, .flowEntry :: rest => .ok rest
        | false, _ => .error .arrangement
      match ts with
      | .flowSequenceEnd :: rest => return ([], rest)
      | .key :: rest => do
        let (item, rest) ← readPair handles fuel depth rest
        let (items, rest) ← readFlowItems handles fuel depth false rest
        return (item :: items, rest)
      | _ => do
        let (item, rest) ← read handles fuel depth false false ts
        let (items, rest) ← readFlowItems handles fuel depth false rest
        return (item :: items, rest)

/-- A mapping of a single pair in a flow sequence, behind its key sign. Where the
key is missing, so is its colon. -/
def readPair (handles : List (String × Address)) : Nat → Nat → List Token →
    Except Error (Node × List Token)
  | 0, _, _ => .error .arrangement
  | fuel + 1, depth, ts =>
    match depth with
    | 0 => .error .depth
    | depth + 1 => do
      let (key, rest) ←
        if endsPairKey ts then .ok (empty, ts.drop 1) else read handles fuel depth false false ts
      let (value, rest) ← match rest with
        | .value :: rest => readOr handles fuel depth false false (endsPairValue rest) rest
        | _ => .ok (empty, rest)
      return (.mapping bare [(key, value)], rest)

/-- The entries of a flow mapping up to its end; every one but the first has a
comma in front. -/
def readFlowEntries (handles : List (String × Address)) : Nat → Nat → Bool → List Token →
    Except Error (List (Node × Node) × List Token)
  | 0, _, _, _ => .error .arrangement
  | fuel + 1, depth, first, ts =>
    match ts with
    | .flowMappingEnd :: rest => .ok ([], rest)
    | _ => do
      let ts ← match first, ts with
        | true, ts => .ok ts
        | false, .flowEntry :: rest => .ok rest
        | false, _ => .error .arrangement
      match ts with
      | .flowMappingEnd :: rest => return ([], rest)
      | .key :: rest => do
        let (key, rest) ← readOr handles fuel depth false false (endsFlowKey rest) rest
        let (value, rest) ← match rest with
          | .value :: rest => readOr handles fuel depth false false (endsFlowValue rest) rest
          | _ => .ok (empty, rest)
        let (entries, rest) ← readFlowEntries handles fuel depth false rest
        return ((key, value) :: entries, rest)
      | _ => do
        let (key, rest) ← read handles fuel depth false false ts
        let (entries, rest) ← readFlowEntries handles fuel depth false rest
        return ((key, empty) :: entries, rest)

end

/-! ## Documents -/

/-- The directives in front of a document: the handles they define. A version is
given at most once and is 1.1 or 1.2; no handle is defined twice. -/
def readDirectives : Bool → List (String × Address) → List Token →
    Except Error (List (String × Address) × List Token)
  | versioned, handles, .versionDirective major minor :: rest =>
    if versioned || major != 1 || (minor != 1 && minor != 2) then .error .arrangement
    else readDirectives true handles rest
  | versioned, handles, .tagDirective handle target :: rest =>
    if (handles.lookup handle).isSome then .error .arrangement
    else readDirectives versioned (handles ++ [(handle, target)]) rest
  | _, handles, ts => .ok (handles, ts)

/-- Whether the front ends a document without content. -/
def endsDocument : List Token → Bool
  | .versionDirective .. :: _ => true
  | .tagDirective .. :: _ => true
  | .documentStart :: _ => true
  | .documentEnd :: _ => true
  | .streamEnd :: _ => true
  | _ => false

/-- Whether nothing but document ends follows. -/
def endsStream : List Token → Bool
  | .documentEnd :: rest => endsStream rest
  | [.streamEnd] => true
  | _ => false

/-- Whether a document has a start mark or directives. -/
def isExplicit : List Token → Bool
  | .versionDirective .. :: _ => true
  | .tagDirective .. :: _ => true
  | .documentStart :: _ => true
  | _ => false

/-- The node of the only document of a text; none if the text has no document. -/
def ofTokens (ts : List Token) : Except Error (Option Node) := do
  let fuel := 3 * ts.length + 3
  if ts == [.streamEnd] then return none
  let (node, rest) ←
    if isExplicit ts then do
      let (handles, ts) ← readDirectives false [] ts
      match ts with
      | .documentStart :: rest =>
        if endsDocument rest then pure (empty, rest)
        else read (handles ++ standardHandles) fuel maxDepth true false rest
      | _ => throw .arrangement
    else read standardHandles fuel maxDepth true false ts
  if endsStream rest then return some node else throw .arrangement

end ClientRoutes.Yaml.Node
