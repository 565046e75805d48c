import Cooling.Action.Samples
import Cooling.Main
import Cooling.Proofs.Action.Requests
import Cooling.Proofs.First
import Cooling.Proofs.Inventory.Contents
import Cooling.Proofs.Inventory.Checks
import Cooling.Proofs.Entity.Fields
import Cooling.Proofs.Entity.Grammar
import Cooling.Proofs.Entity.Events
import Cooling.Proofs.Inventory.Load
import Cooling.Proofs.Action.Ready
import Cooling.Proofs.Startup
import Cooling.Proofs.Zones
import Cooling.Proofs.Text.Bytes
import Cooling.Proofs.Action.Catalogue
import Cooling.Proofs.Binary64.Rounding
import Cooling.Proofs.Binary64.Magnitude
import Cooling.Proofs.Action.Contribution
import Cooling.Proofs.Action.Exact
import Cooling.Proofs.Decimal.Reading
import Cooling.Proofs.Settings
import Cooling.Proofs.Decimal.Digits
import Cooling.Proofs.Json.Numbers
import Cooling.Proofs.Json.Scalars
import Cooling.Proofs.Property
import Cooling.Proofs.Property.Order
import Cooling.Proofs.Property.Sorting
import Cooling.Proofs.Action.Response
import Cooling.Proofs.Action.Reports
import Cooling.Proofs.Action.Resolving
import Cooling.Proofs.Action.Registering
import Cooling.Proofs.Text.Words
import Cooling.Proofs.Settings.Profiles
import Cooling.Proofs.Inventory.Activity
import Cooling.Proofs.Action.Configuration
import Cooling.Proofs.Bus
import Cooling.Proofs.Action.Threshold
import Cooling.Proofs.Toml.Writing
