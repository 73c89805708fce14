import InstallMedia.Url.Reader

/-!
# References

A reference is an address, or what an address lacks when it is seen from another one, the base.  The
base has a special scheme, and is no address of a file.

## Main definitions

* `Url.resolve`: the address that a reference names
-/

namespace InstallMedia.Url

/-- The segments above the last segment of a path. -/
def above (url : Url) : List (List Char) :=
  (url.path.list.dropLast).map String.toList

/-- An address of the base's scheme and authority, with the path that characters name from the
segments `above`. -/
def withPathFrom (base : Url) (above : List (List Char)) (cs : List Char) : Url :=
  assemble base.scheme base.authority
    (.ofChars (Path.readFrom base.isSpecial above (cs.takeWhile (!endsPath ·))))
    (cs.dropWhile (!endsPath ·))

/-- A reference without a scheme. -/
def resolveRelative [InternationalNames] (base : Url) (cs : List Char) : Except UrlFault Url :=
  match cs with
  | [] => .ok { base with fragment := none }
  | '#' :: _ => .ok { base with fragment := (readEnd base.scheme cs).2 }
  | '?' :: _ =>
    .ok { base with query := (readEnd base.scheme cs).1, fragment := (readEnd base.scheme cs).2 }
  | c :: rest =>
    if Path.isSeparator true c then
      match rest with
      | d :: _ =>
        if Path.isSeparator true d then do
          let (authority, rest) ←
            readAuthority base.scheme (rest.dropWhile (Path.isSeparator true))
          return withPath base.scheme (some authority) rest
        else .ok (withPathFrom base [] rest)
      | [] => .ok (withPathFrom base [] rest)
    else .ok (withPathFrom base base.above (c :: rest))

/-- The address that a reference names, seen from the base. -/
def resolve [InternationalNames] (base : Url) (reference : String) : Except UrlFault Url :=
  let cs := trimmed reference
  match scheme? cs with
  | none => resolveRelative base (Path.withoutInnerBlanks cs)
  | some (scheme, rest) =>
    -- The base's own scheme may be written before a relative reference.
    let plain := Path.withoutInnerBlanks rest
    if scheme = base.scheme && scheme ≠ "file" && base.isSpecial &&
        (plain.takeWhile (Path.isSeparator true)).length < 2 then
      resolveRelative base plain
    else readAfterScheme scheme rest

end InstallMedia.Url
