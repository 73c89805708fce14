import InstallMedia.Mount.Mounter
import InstallMedia.Text.Quoted

/-!
# Options of sources

## Main definitions

* `SourceOptions`: how a source is to be made
* `SourceOptions.display`
-/

namespace InstallMedia

/-- How a source is to be made. -/
structure SourceOptions where
  readOnly : Bool := false
  /-- The filesystem types to try on a device, in order. -/
  fsTypes : Option (List String) := none
  mountRoot : Option String := none
  /-- The seconds that an HTTP request may take. -/
  httpTimeout : Option Nat := none
  mounter : Option Mounter := none

namespace SourceOptions

def truth (b : Bool) : String := if b then "true" else "false"

/-- A number of seconds; no time at all is shown in the smallest unit. -/
def seconds (n : Nat) : String := if n = 0 then "0ns" else toString n ++ "s"

/-- The options as they are shown; of the mounter only that there is one. -/
def display (o : SourceOptions) : String :=
  let fsTypes := o.fsTypes.map fun types => Quoted.list (types.map Quoted.text)
  "AccessorOptions \x7b read_only: " ++ truth o.readOnly ++
    ", fs_types: " ++ Quoted.some? fsTypes ++
    ", mount_root: " ++ Quoted.some? (o.mountRoot.map Quoted.path) ++
    ", http_timeout: " ++ Quoted.some? (o.httpTimeout.map seconds) ++
    ", custom_mounter: " ++ truth o.mounter.isSome ++ " \x7d"

end SourceOptions

end InstallMedia
