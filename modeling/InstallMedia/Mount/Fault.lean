import InstallMedia.Fault

/-!
# Failed mounts

## Main definitions

* `MountFault`: why a filesystem could not be mounted or unmounted
* `MountFault.message`
-/

namespace InstallMedia

/-- Why a filesystem could not be mounted or unmounted. -/
inductive MountFault where
  /-- The program could not be run. -/
  | spawn (program : String) (cause : IoFault)
  /-- The program refused. -/
  | rejected (status : Int)
  /-- The program was ended by a signal. -/
  | killed
  deriving DecidableEq, Repr

def MountFault.message : MountFault → String
  | spawn program cause => s!"failed to run {program}: {cause.message}"
  | rejected status => s!"exited with status {status}"
  | killed => "terminated by signal"

end InstallMedia
