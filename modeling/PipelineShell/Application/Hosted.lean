import PipelineShell.Application
import PipelineShell.Host.Setup

namespace PipelineShell.Application

def runOn (setup : Host.Setup) (arguments : List (List UInt8)) (user : String) : Host :=
  let program : Action Unit := do
    let status ← run arguments setup.environment user
    Action.exit status
  (Host.perform setup.start Host.Setup.firstPid program).1.finish

end PipelineShell.Application
