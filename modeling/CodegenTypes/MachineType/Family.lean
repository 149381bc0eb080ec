import CodegenTypes.MachineType.Basic

namespace CodegenTypes.MachineType

def integers : List MachineType := all.filter fun m => m.isInteger && !m.isVector

def floats : List MachineType := all.filter fun m => m.isFloat && !m.isVector

def vectors : List MachineType := all.filter isVector

def fixedVectors : List MachineType := all.filter isFixedVector

def scalableVectors : List MachineType := all.filter isScalableVector

def integerFixedVectors : List MachineType := fixedVectors.filter isInteger

def floatFixedVectors : List MachineType := fixedVectors.filter isFloat

def integerScalableVectors : List MachineType := scalableVectors.filter isInteger

def floatScalableVectors : List MachineType := scalableVectors.filter isFloat

end CodegenTypes.MachineType
