import HyperQueue.Autoalloc.State
import HyperQueue.Autoalloc.Refresh
import HyperQueue.Autoalloc.Schedule
import HyperQueue.Autoalloc.Tick
import HyperQueue.Autoalloc.Lifecycle
import HyperQueue.Autoalloc.Interleaving
import HyperQueue.Client.JobFile
import HyperQueue.Client.AutoAlloc
import HyperQueue.Worker.LocalComm
