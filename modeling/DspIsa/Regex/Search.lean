import DspIsa.Regex.Basic

/-! Searching a text for a regular expression. A place of a text is the number of characters before
it, and a set of places is a number whose bit at a place says whether the place is in the set. -/
namespace DspIsa.Regex

/-- The places with a character of the set behind them. -/
def symbolPlaces (symbols : Symbols) : List Char → Nat
  | [] => 0
  | c :: rest => (symbols.contains c).toNat + 2 * symbolPlaces symbols rest

/-- The places that satisfy a condition, for a text behind a character. -/
def anchorPlaces (anchor : Anchor) (before : Option Char) : List Char → Nat
  | [] => (anchor.holds before none).toNat
  | c :: rest => (anchor.holds before (some c)).toNat + 2 * anchorPlaces anchor (some c) rest

/-- A number of rounds, fewer where a round changes nothing. -/
def afterRounds (step : Nat → Nat) : (rounds places : Nat) → Nat
  | 0, places => places
  | rounds + 1, places =>
    let next := step places
    if next = places then places else afterRounds step rounds next

/-- The places that at most a number of rounds lead to. -/
def reach (step : Nat → Nat) (rounds places : Nat) : Nat :=
  afterRounds (fun places => places ||| step places) rounds places

/-- The way from the places where matches begin to those where they end. -/
structure Walk where
  apply : Nat → Nat

/-- The walk over a text that an expression describes. What depends on the text alone is found
before the walk begins. A match never ends before it begins, so of more rounds than the text has
characters one stays where it is: from there on the number of rounds makes no difference. -/
def walk (text : List Char) : Regex → Walk
  | .empty => ⟨id⟩
  | .symbol symbols =>
    let found := symbolPlaces symbols text
    ⟨fun places => (places &&& found) <<< 1⟩
  | .anchor condition =>
    let found := anchorPlaces condition none text
    ⟨fun places => places &&& found⟩
  | .scriptEdge _ => ⟨fun _ => 0⟩
  | .capture body => body.walk text
  | .sequence first second =>
    let before := first.walk text
    let behind := second.walk text
    ⟨fun places => behind.apply (before.apply places)⟩
  | .choice first second =>
    let one := first.walk text
    let other := second.walk text
    ⟨fun places => one.apply places ||| other.apply places⟩
  | .repetition low high body =>
    let once := body.walk text
    let limit := text.length + 1
    let further := min ((high.map (· - low)).getD limit) limit
    let least := min low limit
    ⟨fun places => reach once.apply further (afterRounds once.apply least places)⟩

/-- The places where a match can end that begins at one of the given places. -/
def ends (text : List Char) (regex : Regex) (places : Nat) : Nat := (regex.walk text).apply places

/-- Whether some part of a text matches. -/
def occursIn (regex : Regex) (text : String) : Bool :=
  regex.ends text.toList ((1 <<< (text.length + 1)) - 1) != 0

theorem testBit_symbolPlaces (symbols : Symbols) (text : List Char) (place : Nat) :
    (symbolPlaces symbols text).testBit place = text[place]?.any symbols.contains := by
  induction text generalizing place with
  | nil => simp [symbolPlaces]
  | cons c rest ih =>
    cases place with
    | zero => cases found : symbols.contains c <;> simp [symbolPlaces, found, Nat.testBit_zero]
    | succ place =>
      have halved : ((symbols.contains c).toNat + 2 * symbolPlaces symbols rest) / 2 =
          symbolPlaces symbols rest := by
        cases symbols.contains c with
        | false => simp
        | true => simp; omega
      rw [symbolPlaces, Nat.testBit_succ, halved, ih]
      simp

/-- A character matches between its place and the next one. -/
theorem testBit_ends_symbol (text : List Char) (symbols : Symbols) (places place : Nat) :
    ((Regex.symbol symbols).ends text places).testBit (place + 1) =
      (places.testBit place && text[place]?.any symbols.contains) := by
  simp [ends, walk, Nat.testBit_shiftLeft, testBit_symbolPlaces]

end DspIsa.Regex
