import Chip8VM.Host.Folder
import Chip8VM.Instruction.Constructor
import Chip8VM.Machine.Request
import Chip8VM.Main
import Chip8VM.Proofs.Decoding
import Chip8VM.Proofs.Pixels
import Chip8VM.Proofs.Ranges
import Chip8VM.Proofs.Strict
import Chip8VM.Proofs.Cycle
import Chip8VM.Proofs.Soundness
import Chip8VM.Proofs.StrictScreen
import Chip8VM.Proofs.Safety
import Chip8VM.Proofs.Faults
import Chip8VM.Proofs.Picture
import Chip8VM.Proofs.Stretches
import Chip8VM.Proofs.PowerOn
import Chip8VM.Proofs.Likeness
import Chip8VM.Proofs.StaleStack
import Chip8VM.Proofs.CallStack
import Chip8VM.Proofs.KeyWait
import Chip8VM.Proofs.Timers
import Chip8VM.Proofs.Sprites
import Chip8VM.Proofs.FontTable
import Chip8VM.Proofs.RandomBytes
import Chip8VM.Proofs.FreshFrames
import Chip8VM.Proofs.Batches
import Chip8VM.Proofs.Handling
import Chip8VM.Proofs.Moments
import Chip8VM.Proofs.Keyboard
import Chip8VM.Proofs.Disturbances
import Chip8VM.Proofs.Endings
import Chip8VM.Proofs.Buzzing
import Chip8VM.Proofs.Presentation
import Chip8VM.Proofs.Refusals
import Chip8VM.Proofs.Log
import Chip8VM.Proofs.Halting
import Chip8VM.Proofs.FrameRate
import Chip8VM.Proofs.Footprints
import Chip8VM.Proofs.Drawing
import Chip8VM.Proofs.Transfers
import Chip8VM.Proofs.Accesses
import Chip8VM.Proofs.OpcodeTable
import Chip8VM.Proofs.Assembler
import Chip8VM.Proofs.Filling
import Chip8VM.Proofs.Printing
import Chip8VM.Proofs.Spellings
import Chip8VM.Proofs.RowBits
import Chip8VM.Proofs.Operands
import Chip8VM.Proofs.Continuity
