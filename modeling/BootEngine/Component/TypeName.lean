/-!
# Names of component types

A type is known by its full path: segments joined by double colons, arguments in angle brackets. The
short name leaves out the path of the outermost type and keeps its arguments as they are.

Contents:
* `afterLastSeparator?`: what follows the last double colon.
* `shortName`: the short name of a full one.
-/

namespace BootEngine.Component

/-- What follows the last double colon, if there is one. -/
def afterLastSeparator? : List Char → Option (List Char)
  | [] => none
  | c :: rest =>
    match afterLastSeparator? rest with
    | some found => some found
    | none => if c == ':' && rest.head? == some ':' then some (rest.drop 1) else none

/-- The short name of a type: the last segment before the first angle bracket, with all that follows
    from there on (`short_type_name`). -/
def shortName (full : String) : String :=
  let head := full.toList.takeWhile (· != '<')
  let arguments := full.toList.dropWhile (· != '<')
  String.ofList ((afterLastSeparator? head).getD head ++ arguments)

end BootEngine.Component
