/-!
# Parts of a text

* `Text.stripFront?`   what follows a given beginning;
* `Text.occursIn`      one text is a part of another;
* `Text.replaceAll`    every occurrence of a text replaced, from the left;
* `Text.splitChars`    the parts between the occurrences of a character;
* `Text.joinWith`      texts with a separator between them.
-/

namespace ReleaseUpgrade.Text

/-- what follows `front`, if the characters start with it -/
def stripChars? : List Char → List Char → Option (List Char)
  | [], cs => some cs
  | _ :: _, [] => none
  | f :: front, c :: cs => if f = c then stripChars? front cs else none

/-- `part` stands somewhere in the characters -/
def occursChars (part : List Char) : List Char → Bool
  | [] => part.isEmpty
  | c :: cs => (stripChars? part (c :: cs)).isSome || occursChars part cs

/-- `skip` characters dropped, then every occurrence of `part` replaced by `value` -/
def replaceChars (part value : List Char) : Nat → List Char → List Char
  | _, [] => []
  | skip + 1, _ :: cs => replaceChars part value skip cs
  | 0, c :: cs =>
    if (stripChars? part (c :: cs)).isSome then
      value ++ replaceChars part value (part.length - 1) cs
    else c :: replaceChars part value 0 cs

/-- what follows `front`, if the text starts with it -/
def stripFront? (front s : String) : Option String :=
  (stripChars? front.toList s.toList).map String.ofList

/-- `part` is a part of the text -/
def occursIn (part s : String) : Bool := occursChars part.toList s.toList

/-- the text with every occurrence of `part`, which is not empty, replaced by `value` -/
def replaceAll (part value s : String) : String :=
  String.ofList (replaceChars part.toList value.toList 0 s.toList)

/-- the text with every `c` replaced by `d` -/
def replaceChar (c d : Char) (s : String) : String :=
  String.ofList (s.toList.map fun x => if x = c then d else x)

/-- the parts between the occurrences of `c`, at least one -/
def splitChars (c : Char) : List Char → List (List Char)
  | [] => [[]]
  | x :: xs =>
    if x = c then [] :: splitChars c xs
    else
      match splitChars c xs with
      | part :: parts => (x :: part) :: parts
      | [] => [[x]]

/-- what stands before the first `c` and what after it, if there is one -/
def cutChars (c : Char) : List Char → List Char × Option (List Char)
  | [] => ([], none)
  | x :: xs =>
    if x = c then ([], some xs)
    else
      let (front, back) := cutChars c xs
      (x :: front, back)

/-- the texts with `separator` between them -/
def joinWith (separator : String) (parts : List String) : String :=
  separator.intercalate parts

@[simp] theorem stripChars?_nil (cs : List Char) : stripChars? [] cs = some cs := by
  cases cs <;> rfl

@[simp] theorem stripChars?_append (front cs : List Char) :
    stripChars? front (front ++ cs) = some cs := by
  induction front with
  | nil => simp
  | cons f front ih => simp [stripChars?, ih]

end ReleaseUpgrade.Text
