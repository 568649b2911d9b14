import Qalsh.WindowProbe
import Qalsh.ScanRun
import Qalsh.Program
import Qalsh.Publication
import Qalsh.AccountRun
import Qalsh.Relation
import Qalsh.PageCodec
import Qalsh.Foundation.Dialogue
import Qalsh.ReleaseRun
import Qalsh.Rejected
import Qalsh.Threads
import Qalsh.Restrict
import Qalsh.Contract
import Qalsh.Answer
import Qalsh.Measure
import Qalsh.Dispatch
