import TuneGraph.Compile.Tune
import TuneGraph.Host.Memory

/-! # Compiling into a host

A tune is compiled and its blocks are handed to a host. Nothing is installed unless the
whole tune compiles, and whatever comes out of the host is an error of the installation.
-/

namespace TuneGraph

/-- Why a tune does not get into a host. -/
inductive BuildError where
  | compile (error : CompileError)
  | install (error : InstallError)

/-- The wording of an error, if it has one. -/
def BuildError.message? : BuildError → Option String
  | compile error => error.message?
  | install error => some error.message

/-- The compilation of a tune and the host with its blocks. -/
def Tune.install {Host : Type} (tune : Tune) (settings : Settings) (startId : Int)
    (install : List Datum → Except HostError Host) : Except BuildError (Compilation × Host) :=
  match tune.compile settings startId with
  | .error fault => throw (.compile fault)
  | .ok compilation =>
    match install compilation.graph.blocks with
    | .error fault => throw (.install fault.installError)
    | .ok host => pure (compilation, host)

end TuneGraph
