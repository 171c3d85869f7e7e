import SequentialExecution.Common
import SequentialExecution.Session
import SequentialExecution.Fence
import SequentialExecution.NodeLoop
import SequentialExecution.Execute
import SequentialExecution.Window
import SequentialExecution.Lifecycle
import SequentialExecution.Trace
import SequentialExecution.FullRun
import SequentialExecution.PartialRun
import SequentialExecution.Concurrency
import SequentialExecution.Instrumented
import SequentialExecution.Profiler
import SequentialExecution.Erasure
import SequentialExecution.OrtValue
