import DocAnnotator.Text.Blank
import DocAnnotator.Text.Word

/-! ## Templates

    A placeholder is a word between double braces, or between braces after a dollar sign, with
    blanks allowed around the word. Rendering is one pass from left to right: a placeholder whose
    word is bound becomes its value, and everything else is copied, so that values are never
    scanned again.
-/

namespace DocAnnotator.Template

/-- The values of the placeholders, by name. -/
abbrev Variables := List (Text × Text)

/-- The value of a name. The first entry counts. -/
def Variables.value? (name : Text) : Variables → Option Text
  | [] => none
  | (key, value) :: rest => if key = name then some value else value? name rest

/-- A placeholder as found: its name, the text it is written with and the text after it. -/
structure Match where
  name : Text
  written : Text
  rest : Text

/-- A word with blanks around it and then `close`; `opened` is the text read before. -/
def placeholderBody? (opened close s : Text) : Option Match :=
  let front := s.takeWhile Text.isBlank
  let s := s.drop front.length
  let name := s.takeWhile Text.isWord
  let s := s.drop name.length
  let back := s.takeWhile Text.isBlank
  let s := s.drop back.length
  if name.isEmpty then none
  else (Text.after? close s).map fun rest => ⟨name, opened ++ front ++ name ++ back ++ close, rest⟩

/-- The placeholder that starts here, if one does. -/
def placeholder? : Text → Option Match
  | '\x7b' :: '\x7b' :: s => placeholderBody? ['\x7b', '\x7b'] ['\x7d', '\x7d'] s
  | '$' :: '\x7b' :: s => placeholderBody? ['$', '\x7b'] ['\x7d'] s
  | _ => none

/-- What follows a literal is no longer than the text itself. -/
theorem length_after? {lead s rest : Text} (h : Text.after? lead s = some rest) :
    rest.length ≤ s.length := by
  fun_induction Text.after? lead s with
  | case1 s => simp_all
  | case2 c lead s ih =>
    have := ih h
    simp only [List.length_cons]
    omega
  | case3 => simp at h
  | case4 => simp at h

/-- The text after a placeholder is no longer than the text that its body stands in. -/
theorem length_placeholderBody? {opened close s : Text} {m : Match}
    (h : placeholderBody? opened close s = some m) : m.rest.length ≤ s.length := by
  simp only [placeholderBody?] at h
  split at h
  · simp at h
  · obtain ⟨rest, hrest, rfl⟩ := Option.map_eq_some_iff.1 h
    have := length_after? hrest
    simp only [List.length_drop] at this
    simp only
    omega

/-- A placeholder takes up at least two characters. -/
theorem length_placeholder? {s : Text} {m : Match} (h : placeholder? s = some m) :
    m.rest.length < s.length := by
  unfold placeholder? at h
  split at h
  · have := length_placeholderBody? h
    simp only [List.length_cons]
    omega
  · have := length_placeholderBody? h
    simp only [List.length_cons]
    omega
  · simp at h

/-- The text that a placeholder becomes: its value where it is bound, itself where it is not. -/
def Match.value (values : Variables) (m : Match) : Text :=
  (values.value? m.name).getD m.written

/-- A template with its placeholders replaced. -/
def render (values : Variables) (s : Text) : Text :=
  match _h : placeholder? s with
  | some m => m.value values ++ render values m.rest
  | none =>
    match s with
    | [] => []
    | c :: s => c :: render values s
  termination_by s.length
  decreasing_by
  · exact length_placeholder? _h
  · simp

/-- Does a template have a placeholder of a name? -/
def mentions (name s : Text) : Bool :=
  match _h : placeholder? s with
  | some m => m.name == name || mentions name m.rest
  | none =>
    match s with
    | [] => false
    | _ :: s => mentions name s
  termination_by s.length
  decreasing_by
  · exact length_placeholder? _h
  · simp

end DocAnnotator.Template
