import ChipEight.Hex
import ChipEight.SystemError
import ChipEight.Failure
import ChipEight.Instruction
import ChipEight.Mnemonic
import ChipEight.Memory
import ChipEight.ByteReader
import ChipEight.Pieces
import ChipEight.Numeral
import ChipEight.FileSystem
import ChipEight.Screen
import ChipEight.Keypad
import ChipEight.Timers
import ChipEight.CallStack
import ChipEight.ChaCha
import ChipEight.RandomSource
import ChipEight.Alu
import ChipEight.Event
import ChipEight.Machine
import ChipEight.Execution
import ChipEight.Operation
import ChipEight.Host
import ChipEight.Console
import ChipEight.FrameLoop
import ChipEight.Script
import ChipEight.Printable
import ChipEight.Quoted
import ChipEight.Utf8
import ChipEight.KeyPress
import ChipEight.InputEvent
import ChipEight.InputStream
import ChipEight.Keyboard
import ChipEight.Picture
import ChipEight.Terminal
import ChipEight.CommandLine
import ChipEight.Session
import ChipEight.Main
import ChipEight.Proofs.Decoding
import ChipEight.Proofs.Ranges
import ChipEight.Proofs.ControlFlow
import ChipEight.Proofs.Soundness
import ChipEight.Proofs.Plotting
import ChipEight.Proofs.Action
import ChipEight.Proofs.Stepwise
import ChipEight.Proofs.TrapFree
import ChipEight.Proofs.Rewinding
import ChipEight.Proofs.Failing
import ChipEight.Proofs.StepCases
import ChipEight.Proofs.Hosting
import ChipEight.Proofs.Faults
import ChipEight.Proofs.Calls
import ChipEight.Proofs.Frames
import ChipEight.Proofs.KeyHold
import ChipEight.Proofs.Tracing
import ChipEight.Proofs.FrameProtocol
import ChipEight.Proofs.Devices
import ChipEight.Proofs.PowerCycle
import ChipEight.Proofs.Clocks
import ChipEight.Proofs.Lockstep
import ChipEight.Proofs.HostMaps
import ChipEight.Proofs.LoopCourse
import ChipEight.Proofs.LoopProtocol
import ChipEight.Proofs.Following
import ChipEight.Proofs.Buzzer
import ChipEight.Proofs.Asides
import ChipEight.Proofs.KeyReads
import ChipEight.Proofs.MemoryReads
import ChipEight.Proofs.Throttling
import ChipEight.Proofs.HiddenBuzzer
import ChipEight.Proofs.LoopSeam
import ChipEight.Proofs.Dialects
import ChipEight.Proofs.WriteSets
import ChipEight.Proofs.RandomWords
import ChipEight.Proofs.Recordings
import ChipEight.Proofs.FaultedFrames
import ChipEight.Proofs.Sprites
import ChipEight.Proofs.VisibleRows
import ChipEight.Proofs.LitPixels
import ChipEight.Proofs.Arithmetic
import ChipEight.Proofs.BlockTransfers
import ChipEight.Proofs.LastWrites
import ChipEight.Proofs.AssemblerLines
import ChipEight.Proofs.TraceLines
import ChipEight.Proofs.ProgramSources
