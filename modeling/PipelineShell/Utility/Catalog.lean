import PipelineShell.Utility.Comparison
import PipelineShell.Utility.Condition
import PipelineShell.Utility.Copy
import PipelineShell.Utility.Count
import PipelineShell.Utility.Digest
import PipelineShell.Utility.Dump
import PipelineShell.Utility.Editor.Run
import PipelineShell.Utility.Encoding
import PipelineShell.Utility.Expression
import PipelineShell.Utility.Extent
import PipelineShell.Utility.Find
import PipelineShell.Utility.Grep
import PipelineShell.Utility.Lines
import PipelineShell.Utility.Processes
import PipelineShell.Utility.Sequence
import PipelineShell.Utility.Stat
import PipelineShell.Utility.ByteSets

namespace PipelineShell.Utility

open Host

def catalog : List (String × Program) := [
  ("[", bracket), ("base64", base64), ("basename", basename), ("cat", cat), ("chmod", chmod),
  ("cksum", cksum), ("cmp", cmp), ("comm", comm), ("cp", cp), ("cut", cut), ("dd", dd),
  ("diff", diff), ("dirname", dirname), ("echo", echo), ("egrep", Grep.program 'E'), ("env", env),
  ("expr", expr), ("factor", factor), ("false", fail), ("fgrep", Grep.program 'F'), ("find", find),
  ("fold", fold), ("grep", grep), ("head", head), ("id", id), ("kill", kill), ("ln", ln),
  ("ls", ls), ("md5sum", md5sum), ("mkdir", mkdir), ("mv", mv), ("nice", nice), ("nl", nl),
  ("nohup", nohup), ("od", od), ("paste", paste), ("printenv", printenv), ("printf", printf),
  ("prlimit", prlimit), ("pwd", pwd), ("readlink", readlink), ("realpath", realpath), ("rev", rev),
  ("rm", rm), ("rmdir", rmdir), ("sed", sed), ("seq", seq), ("sha1sum", sha1sum),
  ("sha256sum", sha256sum), ("sleep", sleep), ("sort", sort), ("stat", stat), ("stdbuf", stdbuf),
  ("sync", succeed), ("tac", tac), ("tail", tail), ("tee", tee), ("test", test),
  ("timeout", timeout), ("touch", touch), ("tr", tr), ("true", succeed), ("truncate", truncate),
  ("tty", tty), ("uname", uname), ("uniq", uniq), ("wc", wc), ("which", which), ("whoami", whoami),
  ("xargs", xargs), ("yes", yes)]

end PipelineShell.Utility
