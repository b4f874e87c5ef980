import DocAnnotator.Json.Basic

/-! ## Merging objects

    `Json.merge base override` keeps every field of both; where both give a key an object the two
    are merged in turn, and elsewhere the value of `override` counts.
-/

namespace DocAnnotator.Json

mutual
/-- The value of a key that `current` holds so far and that the override gives a value. -/
def mergeValue (current : Option Json) : Json → Json
  | .obj fields =>
    match current with
    | some (.obj base) => .obj (merge base fields)
    | _ => .obj fields
  | value => value

/-- The fields of `base` with those of the override put over them, one by one. -/
def merge (base : Fields) : List (Text × Json) → Fields
  | [] => base
  | (key, value) :: rest => merge (base.put key (mergeValue (base.get? key) value)) rest
end

end DocAnnotator.Json
