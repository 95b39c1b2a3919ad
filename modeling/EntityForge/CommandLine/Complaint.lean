/-!
# Complaints

How an error is told together with what caused it.
-/

namespace EntityForge.CommandLine

/-- An error with its causes, the nearest one first. -/
structure Complaint where
  message : String
  causes : List String := []
  deriving DecidableEq, Repr

/-- A text whose further lines begin with so many blanks. -/
def hanging (blanks : Nat) (s : String) : String :=
  ("\n" ++ String.ofList (List.replicate blanks ' ')).intercalate (s.splitOn "\n")

/-- The causes with their numbers from the first one on. -/
def numbered (first : Nat) : List String → List String
  | [] => []
  | cause :: rest =>
    let number := toString first
    let margin := String.ofList (List.replicate (5 - number.length) ' ')
    ("\n" ++ margin ++ number ++ ": " ++ hanging 7 cause) :: numbered (first + 1) rest

/-- A complaint as it is printed. A single cause has no number. -/
def Complaint.text (complaint : Complaint) : String :=
  "Error: " ++ complaint.message ++
    (match complaint.causes with
      | [] => ""
      | [cause] => "\n\nCaused by:\n    " ++ hanging 4 cause
      | causes => "\n\nCaused by:" ++ String.join (numbered 0 causes)) ++ "\n"

end EntityForge.CommandLine
