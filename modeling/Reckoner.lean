import Reckoner.Dispatcher
import Reckoner.Settings.Reader
import Reckoner.Settings.Writer
import Reckoner.Proofs.Trigger
import Reckoner.Proofs.Acceptance
import Reckoner.Proofs.Floats
import Reckoner.Proofs.Resolution
import Reckoner.Proofs.Editing
import Reckoner.Proofs.Session
import Reckoner.Proofs.Constants
import Reckoner.Proofs.Independence
import Reckoner.Proofs.Extension
import Reckoner.Proofs.Display
import Reckoner.Proofs.Persistence
import Reckoner.Proofs.FirstSource
import Reckoner.Proofs.Columns
import Reckoner.Proofs.Refusal
import Reckoner.Proofs.Finiteness
import Reckoner.Proofs.Insertion
import Reckoner.Proofs.Rescan
import Reckoner.Proofs.Calls
import Reckoner.Proofs.Overriding
import Reckoner.Proofs.Extremes
