import SiliconOmni.Provider

/-! A host that handles plain ASCII text, on which runs can be computed. -/
namespace SiliconOmni.Ascii

/-- The words still to come, with the letters of the current one behind them. -/
def wordsFrom : List Char → List Char → List String
  | [], [] => []
  | word, [] => [String.ofList word.reverse]
  | word, c :: rest =>
      if c.isAlphanum then wordsFrom (c.toLower :: word) rest
      else if word = [] then wordsFrom [] rest
      else String.ofList word.reverse :: wordsFrom [] rest

def words (text : String) : List String := wordsFrom [] text.toList

def trim (text : String) : String :=
  let drop (cs : List Char) : List Char := cs.dropWhile Char.isWhitespace
  String.ofList (drop (drop text.toList).reverse).reverse

/-- JSON of strings without quotes, backslashes or control characters. -/
def json : Value → String
  | .null => "null"
  | .bool b => if b then "true" else "false"
  | .number n => toString n
  | .decimal literal => literal
  | .string s => "\"" ++ s ++ "\""
  | .array items => "[" ++ jsonItems items ++ "]"
  | .object entries => "\x7b" ++ jsonEntries entries ++ "\x7d"
where
  jsonItems : List Value → String
    | [] => ""
    | [item] => json item
    | item :: rest => json item ++ "," ++ jsonItems rest
  jsonEntries : List (String × Value) → String
    | [] => ""
    | [(key, value)] => "\"" ++ key ++ "\":" ++ json value
    | (key, value) :: rest => "\"" ++ key ++ "\":" ++ json value ++ "," ++ jsonEntries rest

def utf8 (text : String) : List UInt8 := text.toByteArray.data.toList

/-- The bytes of the same JSON. -/
def print : Value → List UInt8
  | .null => utf8 "null"
  | .bool b => utf8 (if b then "true" else "false")
  | .number n => utf8 (toString n)
  | .decimal literal => utf8 literal
  | .string s => quoted s
  | .array items => utf8 "[" ++ printItems items ++ utf8 "]"
  | .object entries => utf8 "\x7b" ++ printEntries entries ++ utf8 "\x7d"
where
  quoted (s : String) : List UInt8 := utf8 "\"" ++ utf8 s ++ utf8 "\""
  printItems : List Value → List UInt8
    | [] => []
    | [item] => print item
    | item :: rest => print item ++ utf8 "," ++ printItems rest
  printEntries : List (String × Value) → List UInt8
    | [] => []
    | [(key, value)] => quoted key ++ utf8 ":" ++ print value
    | (key, value) :: rest =>
        quoted key ++ utf8 ":" ++ print value ++ utf8 "," ++ printEntries rest

/-- The `n`th id has `n + 1` strokes. -/
def uuid (n : ℕ) : String := String.ofList (List.replicate (n + 1) '1')

theorem uuid_length (n : ℕ) : (uuid n).length = n + 1 := by simp [uuid]

end SiliconOmni.Ascii
namespace SiliconOmni

/-- A machine whose text is plain ASCII. -/
@[reducible] def Host.ascii : Host where
  words := Ascii.words
  trim := Ascii.trim
  json := Ascii.json
  real path := path
  here := "/"
  remote := "https://backend.omni.teamofsilicons.com/choose.json"
  uuid := Ascii.uuid
  uuid_injective a b h := by
    have hlen := congrArg String.length h
    simpa only [Ascii.uuid_length, Nat.add_right_cancel_iff] using hlen
  uuid_ne_empty n h := by
    have hlen := congrArg String.length h
    rw [Ascii.uuid_length] at hlen
    cases hlen

/-- A world where everything works, and one provider has the answer to every question. -/
def Env.ascii : Env where
  nativeId _ runner := runner.name
  registry _ :=
    { fresh := some { provider := "claude-code", model := "opus" }, found := none, stale := none }

/-- A world in which one provider has the answer to every question. -/
def Env.answering (provider : String) : Env where
  nativeId _ runner := runner.name
  registry _ := { fresh := some { provider, model := "m" }, found := none, stale := none }

end SiliconOmni
