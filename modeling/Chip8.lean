import Chip8.Emulator.Call
import Chip8.LogStore
import Chip8.Main
import Chip8.Proofs.Batches
import Chip8.Proofs.Buzzer
import Chip8.Proofs.ByteRuns
import Chip8.Proofs.ByteScreens
import Chip8.Proofs.CallStack
import Chip8.Proofs.ControlFlow
import Chip8.Proofs.DecimalDigits
import Chip8.Proofs.Emissions
import Chip8.Proofs.Expiry
import Chip8.Proofs.Faults
import Chip8.Proofs.FlagOrder
import Chip8.Proofs.Footprint
import Chip8.Proofs.Frames
import Chip8.Proofs.HaltedBatches
import Chip8.Proofs.HeldKeys
import Chip8.Proofs.HexNumerals
import Chip8.Proofs.History
import Chip8.Proofs.HostFailures
import Chip8.Proofs.IndexAlias
import Chip8.Proofs.InstructionCounts
import Chip8.Proofs.InstructionText
import Chip8.Proofs.KeySet
import Chip8.Proofs.KeyWait
import Chip8.Proofs.LatchedStop
import Chip8.Proofs.Listings
import Chip8.Proofs.LosslessListings
import Chip8.Proofs.MemoryArray
import Chip8.Proofs.Nesting
import Chip8.Proofs.Notifications
import Chip8.Proofs.NumeralCharacters
import Chip8.Proofs.Observers
import Chip8.Proofs.Pixels
import Chip8.Proofs.PrintedAddresses
import Chip8.Proofs.ProgramCounter
import Chip8.Proofs.RandomStream
import Chip8.Proofs.Reassembly
import Chip8.Proofs.Reentry
import Chip8.Proofs.RefusedLoads
import Chip8.Proofs.RegisterTransfer
import Chip8.Proofs.Reloading
import Chip8.Proofs.RunComposition
import Chip8.Proofs.RunReports
import Chip8.Proofs.ScreenViews
import Chip8.Proofs.SpeedGrammar
import Chip8.Proofs.SpriteBits
import Chip8.Proofs.SpriteInstruction
import Chip8.Proofs.Sprites
import Chip8.Proofs.Stopped
import Chip8.Proofs.Superposition
import Chip8.Proofs.TraceAndLog
import Chip8.Proofs.TraceWindow
import Chip8.Proofs.Unheard
import Chip8.Proofs.WellFormedness
import Chip8.Proofs.WriteProtection
