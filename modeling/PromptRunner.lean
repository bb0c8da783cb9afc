import PromptRunner.Main
import PromptRunner.Proofs.Answer
import PromptRunner.Proofs.Cache.Names
import PromptRunner.Proofs.Cache.Partial
import PromptRunner.Proofs.Cache.Stored
import PromptRunner.Proofs.Session
import PromptRunner.Proofs.Sharing.Directory
import PromptRunner.Proofs.Sharing.Removal
import PromptRunner.Proofs.Provider.Secrecy
import PromptRunner.Proofs.Provider.Routing
import PromptRunner.Proofs.Execution
import PromptRunner.Proofs.Cache.Footprint
import PromptRunner.Proofs.CommandLine.Pipeline
import PromptRunner.Proofs.CommandLine.Repeated
import PromptRunner.Proofs.CommandLine.Apart
import PromptRunner.Proofs.CommandLine.Replied
import PromptRunner.Proofs.Answer.Stability
import PromptRunner.Proofs.Sharing.Storing
import PromptRunner.Proofs.Settings.Layers
import PromptRunner.Proofs.Provider.Bodies
import PromptRunner.Proofs.Provider.Thinking
import PromptRunner.Proofs.Provider.Blocks
import PromptRunner.Proofs.Provider.Refusals
import PromptRunner.Proofs.Provider.Counts
import PromptRunner.Proofs.Provider.Naming
import PromptRunner.Proofs.Provider.Delivered
import PromptRunner.Proofs.Provider.Undecoded
import PromptRunner.Proofs.Settings.Written
import PromptRunner.Proofs.Request
import PromptRunner.Proofs.Cache.Safety
import PromptRunner.Proofs.Cache.Choice
import PromptRunner.Proofs.Execution.Directory
import PromptRunner.Proofs.Execution.Interpreter
