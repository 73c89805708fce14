/-!
# Splitting texts

Texts are split at separators: into all their fields, at the first separator, or at the last one.

## Main definitions

* `Split.fields`: all fields
* `Split.atFirst?`, `Split.atLast?`: the parts before and after a separator
* `Split.around?`: the parts before and after the first place where a text stands
* `Split.trim`: without what stands at both ends
-/

namespace InstallMedia.Split

variable {α : Type}

/-- The fields between separators: one more than there are separators. -/
def fields (isSeparator : α → Bool) : List α → List (List α)
  | [] => [[]]
  | c :: rest =>
    if isSeparator c then [] :: fields isSeparator rest
    else
      match fields isSeparator rest with
      | [] => [[c]]
      | field :: more => (c :: field) :: more

/-- The parts before and after the first separator. -/
def atFirst? (isSeparator : α → Bool) : List α → Option (List α × List α)
  | [] => none
  | c :: rest =>
    if isSeparator c then some ([], rest)
    else (atFirst? isSeparator rest).map fun (before, after) => (c :: before, after)

/-- The parts before and after the last separator. -/
def atLast? (isSeparator : α → Bool) : List α → Option (List α × List α)
  | [] => none
  | c :: rest =>
    -- A separator further on counts before this one.
    match atLast? isSeparator rest with
    | some (before, after) => some (c :: before, after)
    | none => if isSeparator c then some ([], rest) else none

/-- What follows `front` at the beginning of a list. -/
def strip? [DecidableEq α] : (front : List α) → List α → Option (List α)
  | [], rest => some rest
  | _ :: _, [] => none
  | f :: front, c :: rest => if f = c then strip? front rest else none

/-- The parts before and after the first place where `middle` stands. -/
def around? [DecidableEq α] (middle : List α) : List α → Option (List α × List α)
  | [] => if middle = [] then some ([], []) else none
  | c :: rest =>
    match strip? middle (c :: rest) with
    | some after => some ([], after)
    | none => (around? middle rest).map fun (before, after) => (c :: before, after)

/-- A list without those of its last elements that satisfy `drop`. -/
def trimEnd (drop : α → Bool) (xs : List α) : List α :=
  (xs.reverse.dropWhile drop).reverse

/-- A list without those of its first and last elements that satisfy `drop`. -/
def trim (drop : α → Bool) (xs : List α) : List α :=
  trimEnd drop (xs.dropWhile drop)

end InstallMedia.Split
