import Coupling.Paths.Path
import Coupling.Settings.Basic

/-!
# Where results are kept
-/

namespace Coupling.Cache

/-- The variables of the environment that matter. -/
structure Environment where
  /-- The directory for results. -/
  cacheDir : Option Path := none
  home : Path
  /-- The directory for caches of all programs. -/
  xdgCacheHome : Option Path := none

/-- The directory for caches of all programs; a relative one is not accepted. -/
def Environment.platformDir (e : Environment) : Path :=
  match e.xdgCacheHome with
  | some dir =>
    if dir.bytes.head? = some Paths.slash then dir else Paths.join e.home (.ofText ".cache")
  | none => Paths.join e.home (.ofText ".cache")

/-- The directory for results when the settings name none. -/
def Environment.defaultDir (e : Environment) : Path :=
  match e.cacheDir with
  | some dir =>
    if dir.bytes.isEmpty then Paths.join e.platformDir (.ofText "connascence") else dir
  | none => Paths.join e.platformDir (.ofText "connascence")

def resolveDir (e : Environment) (s : CacheSettings) : Path :=
  (s.directory.map Path.ofText).getD e.defaultDir

end Coupling.Cache
