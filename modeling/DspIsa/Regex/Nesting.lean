import DspIsa.Regex.Term

/-! How deep the parts of an expression lie in one another. -/
namespace DspIsa.Regex

/-- How many parts may lie around a part. -/
def nestingLimit : Nat := 250

mutual

/-- The first member, from the outside inwards, that lies deeper than the limit, given how many
members and terms lie around it. -/
def Member.tooDeep? (depth : Nat) : Member → Option Extent
  | .blank _ => none
  | .literal _ => none
  | .range _ _ _ => none
  | .named _ _ _ => none
  | .shorthand _ _ _ => none
  | .property _ _ => none
  | .bracket extent _ content =>
    if depth < nestingLimit then content.tooDeep? (depth + 1) else some extent
  | .operation extent _ left right =>
    if depth < nestingLimit then
      (left.tooDeep? (depth + 1)).or (right.tooDeep? (depth + 1))
    else some extent
  | .union extent members =>
    if depth < nestingLimit then Member.anyTooDeep? (depth + 1) members else some extent

def Member.anyTooDeep? (depth : Nat) : List Member → Option Extent
  | [] => none
  | member :: members => (member.tooDeep? depth).or (Member.anyTooDeep? depth members)

end

mutual

/-- The first term, from the outside inwards, that lies deeper than the limit, given how many lie
around it. -/
def Term.tooDeep? (depth : Nat) : Term → Option Extent
  | .empty _ => none
  | .modes _ _ => none
  | .literal _ => none
  | .dot _ => none
  | .anchor _ _ => none
  | .shorthand _ _ _ => none
  | .property _ _ => none
  | .bracket extent _ content =>
    if depth < nestingLimit then content.tooDeep? (depth + 1) else some extent
  | .repetition extent _ _ body =>
    if depth < nestingLimit then body.tooDeep? (depth + 1) else some extent
  | .group extent _ body =>
    if depth < nestingLimit then body.tooDeep? (depth + 1) else some extent
  | .sequence extent terms =>
    if depth < nestingLimit then Term.anyTooDeep? (depth + 1) terms else some extent
  | .choice extent terms =>
    if depth < nestingLimit then Term.anyTooDeep? (depth + 1) terms else some extent

def Term.anyTooDeep? (depth : Nat) : List Term → Option Extent
  | [] => none
  | term :: terms => (term.tooDeep? depth).or (Term.anyTooDeep? depth terms)

end

end DspIsa.Regex
