import Chip8.Main
import Chip8.Memory.Changes
import Chip8.Run.Narration
import Chip8.Proofs.NoFaults
import Chip8.Proofs.WaitPlaces
import Chip8.Proofs.Encoding
import Chip8.Proofs.SingleSteps
import Chip8.Proofs.Cuts
import Chip8.Proofs.HeldKeys
import Chip8.Proofs.MissingRegisters
import Chip8.Proofs.Requests
import Chip8.Proofs.Likeness
import Chip8.Proofs.FramesShown
import Chip8.Proofs.Resets
import Chip8.Proofs.TimersAndKeys
import Chip8.Proofs.Publishing
import Chip8.Proofs.Erasing
import Chip8.Proofs.Mnemonics
import Chip8.Proofs.Readouts
import Chip8.Proofs.LoopEffects
import Chip8.Proofs.Calls
import Chip8.Proofs.AddressMap
import Chip8.Proofs.RegisterBlocks
import Chip8.Proofs.ByteArithmetic
import Chip8.Proofs.Footprints
import Chip8.Proofs.Atomicity
import Chip8.Proofs.BeyondMemory
import Chip8.Proofs.RandomWords
import Chip8.Proofs.KeyReports
import Chip8.Proofs.DecimalDigits
import Chip8.Proofs.KeyNames
import Chip8.Proofs.TimerTicks
import Chip8.Proofs.FreshWaits
import Chip8.Proofs.Pictures
import Chip8.Proofs.StackHistories
