import IoReactor.Calls
import IoReactor.Panics
import IoReactor.Ownership
import IoReactor.Timers
import IoReactor.Deadlines
import IoReactor.Batches
import IoReactor.Waits
import IoReactor.Interests
import IoReactor.Callbacks
import IoReactor.Streams
import IoReactor.Passes
import IoReactor.Rounds
import IoReactor.Replica
import IoReactor.Orders
import IoReactor.Tables
import IoReactor.Eventually
import IoReactor.Lateness
import IoReactor.Lifetime
import IoReactor.Starvation
import IoReactor.Latency
