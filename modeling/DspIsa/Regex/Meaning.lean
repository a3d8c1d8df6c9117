import DspIsa.Regex.Basic
import DspIsa.Regex.Mistake

/-! What a written expression means in the modes that are on where it stands. The letters, digits
and letter cases of scripts beyond ASCII are not known: what depends on them is refused as long as
the mode for scripts is on. -/
namespace DspIsa.Regex

/-- The modes that make a difference to what matches. -/
structure Modes where
  anyCase : Bool
  lines : Bool
  dotAll : Bool
  scripts : Bool
  returns : Bool
  deriving DecidableEq, Repr

namespace Modes

def standard : Modes := ⟨false, false, false, true, false⟩

/-- The modes after some have been switched. -/
def switch (modes : Modes) (items : List ModeItem) : Modes :=
  let setting (mode : Mode) (before : Bool) := (ModeItem.setting? mode items).getD before
  { anyCase := setting .anyCase modes.anyCase
    lines := setting .lines modes.lines
    dotAll := setting .dotAll modes.dotAll
    scripts := setting .scripts modes.scripts
    returns := setting .returns modes.returns }

end Modes

def refusal {α : Type} (fault : Fault) (extent : Extent) : Except Mistake α :=
  .error ⟨fault, extent, none⟩

/-- The character of a literal. Without scripts a byte beyond ASCII is no character. -/
def Literal.meaning (modes : Modes) (written : Literal) : Except Mistake Char :=
  if !modes.scripts ∧ written.isByte ∧ '\x7f' < written.char then
    refusal .brokenEncoding written.extent
  else .ok written.char

/-- The literal as a regular expression. Without scripts only the letters of ASCII have case. -/
def Literal.regex (modes : Modes) (written : Literal) : Except Mistake Regex := do
  let c ← written.meaning modes
  if !modes.anyCase then return .symbol (.single c)
  else if modes.scripts then refusal .caseUnknown written.extent
  else if c.isAlpha then return .symbol (.anyCase (.single c))
  else return .symbol (.single c)

/-- The character of a literal in brackets, where it has to be in ASCII unless scripts are on. -/
def Literal.symbol (modes : Modes) (written : Literal) : Except Mistake Char := do
  let c ← written.meaning modes
  if !modes.scripts ∧ '\x7f' < c then refusal .scriptsOff written.extent
  else return c

/-- All characters but those of a set. Without scripts they would be bytes beyond ASCII, too. -/
def negate (modes : Modes) (extent : Extent) (negated : Bool) (symbols : Symbols) :
    Except Mistake Symbols :=
  if !negated then .ok symbols
  else if modes.scripts then .ok (.complement symbols)
  else refusal .brokenEncoding extent

/-- A set without regard to case, where the modes ask for it. For an empty set nothing has to be
known about case. -/
def foldCase (modes : Modes) (extent : Extent) (inhabited : Bool) (symbols : Symbols) :
    Except Mistake Symbols :=
  if !modes.anyCase then .ok symbols
  else if !modes.scripts then .ok (.anyCase symbols)
  else if inhabited then refusal .caseUnknown extent
  else .ok symbols

def NamedClass.meaning (modes : Modes) (extent : Extent) (negated : Bool) (cls : NamedClass) :
    Except Mistake Symbols := do
  negate modes extent negated (← foldCase modes extent true (.ofRanges cls.ranges))

def Shorthand.meaning (modes : Modes) (extent : Extent) (negated : Bool) (cls : Shorthand) :
    Except Mistake Symbols :=
  if modes.scripts then refusal .shorthandUnknown extent
  else negate modes extent negated (.ofRanges cls.named.ranges)

/-- The name of a property without what makes no difference in it: a leading `is`, case, spaces,
minus signs and underscores. -/
def plainName (name : String) : String :=
  let lowered := name.toList.map Char.toLower
  let chars := if ['i', 's'].isPrefixOf lowered then lowered.drop 2 else lowered
  String.ofList (chars.filter fun c => c ≤ '\x7f' && c != ' ' && c != '_' && c != '-')

/-- No property is known. Three names that properties and categories share are taken for
categories, of which none is known either. -/
def propertyFault (modes : Modes) (name : String) : Fault :=
  if !modes.scripts then .scriptsOff
  else if ["cf", "sc", "lc"].contains (plainName name) then .propertyValueUnknown
  else .propertyUnknown

def SetOperator.apply : SetOperator → (left right : Symbols) → Symbols
  | .intersection, left, right => .intersection left right
  | .difference, left, right => .difference left right
  | .exclusive, left, right => .exclusive left right

mutual

/-- Whether characters are named anywhere in a member. -/
def Member.isInhabited : Member → Bool
  | .blank _ => false
  | .literal _ => true
  | .range _ _ _ => true
  | .named _ _ _ => true
  | .shorthand _ _ _ => true
  | .property _ _ => true
  | .bracket _ _ content => content.isInhabited
  | .operation _ _ left right => left.isInhabited || right.isInhabited
  | .union _ members => Member.anyInhabited members

def Member.anyInhabited : List Member → Bool
  | [] => false
  | member :: members => member.isInhabited || Member.anyInhabited members

end

mutual

def Member.meaning (modes : Modes) : Member → Except Mistake Symbols
  | .blank _ => return .none
  | .literal written => return .single (← written.symbol modes)
  | .range _ low high => return .range (← low.symbol modes) (← high.symbol modes)
  | .named extent negated cls => cls.meaning modes extent negated
  | .shorthand extent negated cls => cls.meaning modes extent negated
  | .property extent name => refusal (propertyFault modes name) extent
  | .bracket extent negated content => do
    let symbols ← content.meaning modes
    negate modes extent negated (← foldCase modes extent content.isInhabited symbols)
  | .operation _ operator left right => do
    let first ← left.meaning modes
    let second ← right.meaning modes
    let second ← foldCase modes right.extent right.isInhabited second
    let first ← foldCase modes left.extent left.isInhabited first
    return operator.apply first second
  | .union _ members => Member.meanings modes members

def Member.meanings (modes : Modes) : List Member → Except Mistake Symbols
  | [] => return .none
  | member :: members =>
    return .union (← member.meaning modes) (← Member.meanings modes members)

end

def WrittenAnchor.meaning (modes : Modes) : WrittenAnchor → Regex
  | .caret => .anchor (if modes.lines then .lineStart modes.returns else .textStart)
  | .dollar => .anchor (if modes.lines then .lineStop modes.returns else .textStop)
  | .textStart => .anchor .textStart
  | .textStop => .anchor .textStop
  | .word edge => if modes.scripts then .scriptEdge edge else .anchor (.word edge)

/-- What a dot matches: any character, or any that does not end a line. -/
def dotSymbols (modes : Modes) : Symbols :=
  if modes.dotAll then .allBut []
  else if modes.returns then .allBut ['\r', '\n']
  else .allBut ['\n']

mutual

/-- The meaning of a term, and the modes behind it. What a group switches is switched back behind
the group. -/
def Term.meaning (modes : Modes) : Term → Except Mistake (Regex × Modes)
  | .empty _ => return (.empty, modes)
  | .modes _ items => return (.empty, modes.switch items)
  | .literal written => return (← written.regex modes, modes)
  | .dot extent =>
    if modes.scripts then return (.symbol (dotSymbols modes), modes)
    else refusal .brokenEncoding extent
  | .anchor _ written => return (written.meaning modes, modes)
  | .shorthand extent negated cls =>
    return (.symbol (← cls.meaning modes extent negated), modes)
  | .property extent name => refusal (propertyFault modes name) extent
  | .bracket extent negated content => do
    let symbols ← content.meaning modes
    let symbols ← foldCase modes extent content.isInhabited symbols
    return (.symbol (← negate modes extent negated symbols), modes)
  | .repetition _ low high body => do
    let (regex, modes) ← body.meaning modes
    return (regex.repeated low high, modes)
  | .group _ .capture body => return (.capture (← body.meaning modes).1, modes)
  | .group _ (.plain items) body => return ((← body.meaning (modes.switch items)).1, modes)
  | .sequence _ terms => Term.sequenceMeaning modes terms
  | .choice _ terms => Term.choiceMeaning modes terms

def Term.sequenceMeaning (modes : Modes) : List Term → Except Mistake (Regex × Modes)
  | [] => return (.empty, modes)
  | term :: terms => do
    let (first, modes) ← term.meaning modes
    let (rest, modes) ← Term.sequenceMeaning modes terms
    return (.sequence first rest, modes)

/-- Modes that one branch switches stay switched in the branches behind it. -/
def Term.choiceMeaning (modes : Modes) : List Term → Except Mistake (Regex × Modes)
  | [] => return (.empty, modes)
  | [term] => term.meaning modes
  | term :: terms => do
    let (first, modes) ← term.meaning modes
    let (rest, modes) ← Term.choiceMeaning modes terms
    return (.choice first rest, modes)

end

end DspIsa.Regex
