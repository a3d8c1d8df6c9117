import DspIsa.Log

/-! The lines that a command leaves on its error stream: its notices, then the records of its log
and then its complaint. -/
namespace DspIsa.Command

/-- A line, which has a level where a record begins. -/
structure ErrorLine where
  level : Option LogLevel
  text : String
  deriving DecidableEq, Repr

/-- Lines with the pieces of a text in front. The last piece has no line break behind it and so
begins the line that follows. -/
def precede (level : Option LogLevel) : List String → List ErrorLine → List ErrorLine
  | [], following => following
  | [piece], [] => if piece = "" ∧ level = none then [] else [⟨level, piece⟩]
  | [piece], line :: others =>
    if piece = "" ∧ level = none then line :: others
    else ⟨level, piece ++ line.text⟩ :: others
  | piece :: pieces, following => ⟨level, piece⟩ :: precede none pieces following

/-- The error stream line by line. -/
def errorLines (notices : String) (records : List LogRecord) (complaint : String) :
    List ErrorLine :=
  precede none (notices.splitOn "\n")
    (records.foldr (fun record => precede (some record.level) (record.printed.splitOn "\n"))
      (precede none (complaint.splitOn "\n") []))

end DspIsa.Command
