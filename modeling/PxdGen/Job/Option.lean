/-! # Options

The words of a command line begin with its options. An option is a letter behind a dash, or a word
behind two dashes that may be cut short as long as it is the only one of its beginning. Letters
without an argument can share a dash; the argument of a letter is the rest of its word or the next
word. Two dashes alone end the options, and so does the first word that is none.
-/

namespace PxdGen.Job

/-- The options of a program, each with whether it takes an argument. -/
structure OptionTable where
  letters : List (Char × Bool)
  words : List (String × Bool)

inductive OptionFault where
  | unknownLetter (letter : Char)
  | letterAlone (letter : Char)
  | unknownWord (word : String)
  | ambiguousWord (word : String)
  | wordAlone (word : String)
  | unwantedArgument (word : String)
deriving DecidableEq, Repr

def OptionFault.message : OptionFault → String
  | .unknownLetter c => "option -" ++ c.toString ++ " not recognized"
  | .letterAlone c => "option -" ++ c.toString ++ " requires argument"
  | .unknownWord w => "option --" ++ w ++ " not recognized"
  | .ambiguousWord w => "option --" ++ w ++ " not a unique prefix"
  | .wordAlone w => "option --" ++ w ++ " requires argument"
  | .unwantedArgument w => "option --" ++ w ++ " must not have an argument"

/-- An option with its argument, which is empty if there is none. -/
structure GivenOption where
  name : String
  argument : String := ""
deriving DecidableEq, Repr

/-- Options, and whether the word after them is the argument of the last. -/
structure OptionWord where
  given : List GivenOption
  takesNext : Bool := false

namespace OptionTable

variable (t : OptionTable)

def readLetters (next : Option String) : List Char → Except OptionFault OptionWord
  | [] => .ok ⟨[], false⟩
  | c :: rest =>
    let name := "-" ++ c.toString
    match t.letters.lookup c with
    | none => .error (.unknownLetter c)
    | some false => do
      let others ← readLetters next rest
      .ok { others with given := ⟨name, ""⟩ :: others.given }
    | some true =>
      match rest, next with
      | _ :: _, _ => .ok ⟨[⟨name, String.ofList rest⟩], false⟩
      | [], some argument => .ok ⟨[⟨name, argument⟩], true⟩
      | [], none => .error (.letterAlone c)

def completeWord (word : String) : Except OptionFault (String × Bool) :=
  match t.words.lookup word with
  | some takesArgument => .ok (word, takesArgument)
  | none =>
    match t.words.filter fun (w, _) => w.startsWith word with
    | [] => .error (.unknownWord word)
    | [found] => .ok found
    | _ => .error (.ambiguousWord word)

/-- The option in a word, which may hold its argument behind an equality sign. -/
def readWord (next : Option String) (cs : List Char) : Except OptionFault OptionWord := do
  let (word, takesArgument) ← t.completeWord (String.ofList (cs.takeWhile (· != '=')))
  let name := "--" ++ word
  match takesArgument, cs.dropWhile (· != '='), next with
  | false, [], _ => .ok ⟨[⟨name, ""⟩], false⟩
  | false, _ :: _, _ => .error (.unwantedArgument word)
  | true, _ :: argument, _ => .ok ⟨[⟨name, String.ofList argument⟩], false⟩
  | true, [], some argument => .ok ⟨[⟨name, argument⟩], true⟩
  | true, [], none => .error (.wordAlone word)

def read (args : List String) : Except OptionFault (List GivenOption × List String) :=
  match args with
  | [] => .ok ([], [])
  | arg :: rest =>
    match arg.toList with
    | ['-', '-'] => .ok ([], rest)
    | '-' :: c :: cs => do
      let found ← if c == '-' then t.readWord rest.head? cs else t.readLetters rest.head? (c :: cs)
      let (given, words) ← read (rest.drop (if found.takesNext then 1 else 0))
      .ok (found.given ++ given, words)
    | _ => .ok ([], args)
termination_by args.length

end OptionTable

end PxdGen.Job
