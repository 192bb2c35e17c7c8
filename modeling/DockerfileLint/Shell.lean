import DockerfileLint.Sequence

/-!
# Words of a shell command

A `RUN` instruction carries a flat list of words. The control operators `;`, `|` and `&&` cut it
into segments; quoting and subshells are not looked at.

* `Shell.segments` cuts at the operators, which it drops.
* `Shell.invokes` asks whether some segment starts with a program.
* `Shell.dropFlagged` removes flags together with the word after each.
-/

namespace DockerfileLint.Shell

/-- The words that end one command and start the next. -/
def operators : List String := [";", "|", "&&"]

/-- Whether a word is a control operator. -/
def isOperator (word : String) : Bool := operators.contains word

/-- The commands of a word list: the pieces between its control operators. -/
def segments (words : List String) : List (List String) := splitWhere isOperator words

/-- Whether some command of the list starts with `program`. -/
def invokes (words : List String) (program : String) : Bool :=
  (segments words).any fun segment => segment.head? == some program

/-- The list without the given flags and without the word that follows each of them. A flag that
follows a flag is that flag's value and takes no word of its own. -/
def dropFlagged (flags : List String) : List String → List String
  | [] => []
  | [word] => if flags.contains word then [] else [word]
  | word :: next :: rest =>
    if flags.contains word then dropFlagged flags rest
    else word :: dropFlagged flags (next :: rest)

end DockerfileLint.Shell
