import PipelineShell.Script.Program
import PipelineShell.Utility.Catalog

namespace PipelineShell.Programs

open Host

def installed : List (String × Program) :=
  [("sh", Script.program), ("dash", Script.program), ("bash", Script.program)] ++ Utility.catalog

end PipelineShell.Programs
